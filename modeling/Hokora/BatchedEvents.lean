import Hokora.SubscriberAttributes

/-!
# Events of batched subscribers

Runs of the subscription manager in which every event pushed to an identified subscriber with the
BATCHED profile is counted, with its repetitions, and found again: sent on the link, through LXMF,
handed to the defer hook, in a batch, or cut from a full batch. What becomes of an event that was
handed out is not followed further.
-/
namespace Hokora.BatchedEvents
open BigEndian Constants Database KeyedTable LiveDelivery LiveDelivery.LiveSubscriptionManager
  LiveSubscriptions ReadHandlers TransitionRuns Windows
open List

variable {L : Type} [DecidableEq L]

def handedOut (s : LiveSubscriptionManager L) : List (L × Push) :=
  (s.journal.filter fun x => x.via ≠ .batched).map fun x => (x.link, x.push)

def Batch.pushes (b : Batch L) : List (L × Push) := b.events.map fun e => (b.link, e.1)

def waiting (s : LiveSubscriptionManager L) : List (L × Push) :=
  s.batchBuffer.rows.flatMap Batch.pushes

def addressed (push : Push) (s : LiveSubscriptionManager L) (subscribers : List (L × ℤ)) :
    List (L × Push) :=
  (subscribers.filter fun x => x.2 = cdspProfileBatched ∧ (s.identityOf x.1).isSome).map fun x =>
    (x.1, push)

def cutFor (net : Network L) (push : Push) (s : LiveSubscriptionManager L) (x : L × ℤ) :
    List (L × Push) :=
  if net.active x.1 = true ∧ x.2 = cdspProfileBatched then
    let events := s.batchEvents push.channelId x.1 ++ [(push, net.now)]
    (events.take (events.length - maxBatchEvents)).map fun e => (x.1, e.1)
  else []

def cutBy (net : Network L) (push : Push) :
    LiveSubscriptionManager L → List (L × ℤ) → List (L × Push)
  | _, [] => []
  | s, x :: xs => cutFor net push s x ++ cutBy net push (deliver net push s x) xs

structure Tracked (L : Type) [DecidableEq L] where
  manager : LiveSubscriptionManager L := {}
  pushed : List (L × Push) := []
  cut : List (L × Push) := []

inductive Operation (L : Type) where
  | operation (op : SubscriberAttributes.Operation L)
  | flushBatches (net : Network L) (reachable : String → Bool)

def trackPush (net : Network L) (t : Tracked L) (call : Push × List (L × ℤ)) : Tracked L where
  manager := pushToSubscribers net call.1 t.manager call.2
  pushed := t.pushed ++ addressed call.1 t.manager call.2
  cut := t.cut ++ cutBy net call.1 t.manager call.2

def messageCalls (prim : ReadPrimitives) (sealedManager : Option Keyring)
    (s : LiveSubscriptionManager L) (channelId : String) (m : Message)
    (senderPublicKey : Option Bytes) : List (Push × List (L × ℤ)) :=
  let subscribers := s.live.getSubscribers channelId
  let push (capable : Bool) := messagePush prim sealedManager capable channelId m senderPublicKey
  match sealedManager, ciphertext m with
  | some _, some _ =>
    let capable (x : L × ℤ) : Bool := x.1 ∈ s.live.supportsSealedAtRest
    [(push false, subscribers.filter fun x => !capable x), (push true, subscribers.filter capable)]
  | _, _ => [(push false, subscribers)]

def step (t : Tracked L) : Operation L → Tracked L
  | .operation (.subscribe channelId link syncProfile identityHash supports) =>
    match t.manager.subscribe channelId link syncProfile identityHash supports with
    | none => t
    | some manager => { t with manager := manager }
  | .operation (.unsubscribe channelId link) =>
    { t with manager := t.manager.unsubscribe channelId link }
  | .operation (.unsubscribeAll link) => { t with manager := t.manager.unsubscribeAll link }
  | .operation (.pushMessage prim sealedManager net channelId m senderPublicKey) =>
    run (trackPush net) t (messageCalls prim sealedManager t.manager channelId m senderPublicKey)
  | .operation (.pushEvent net push) =>
    trackPush net t (push, t.manager.live.getSubscribers push.channelId)
  | .operation (.linkDeath link) => { t with manager := handleLinkDeath t.manager link }
  | .flushBatches net reachable =>
    { t with manager := LiveDelivery.flushBatches net reachable t.manager }

structure Accounts (pushed cut : List (L × Push)) (s s' : LiveSubscriptionManager L) : Prop where
  hook : s'.deferHook = s.deferHook
  count : ∀ p, (handedOut s).countP p + (waiting s).countP p + pushed.countP p ≤
    (handedOut s').countP p + (waiting s').countP p + cut.countP p

variable {push : Push} {x : L × ℤ} {subs : List (L × ℤ)}

section
variable {pushed cut pushed' cut' : List (L × Push)} {s s₁ s' : LiveSubscriptionManager L}

lemma Accounts.trans (h : Accounts pushed cut s s₁) (h' : Accounts pushed' cut' s₁ s') :
    Accounts (pushed ++ pushed') (cut ++ cut') s s' := by
  refine ⟨h'.hook.trans h.hook,fun p => ?_⟩
  have hf := h.count p
  have hs := h'.count p
  rw [countP_append,countP_append]
  omega

lemma Accounts.same (hh : s'.deferHook = s.deferHook) (hj : s'.journal = s.journal)
    (hb : s'.batchBuffer = s.batchBuffer) : Accounts [] [] s s' := by
  refine ⟨hh,fun p => ?_⟩
  rw [handedOut,handedOut,waiting,waiting,hj,hb]

lemma Accounts.run {A : Type} {f : LiveSubscriptionManager L → A → LiveSubscriptionManager L}
    (hf : ∀ s a, Accounts [] [] s (f s a)) (s : LiveSubscriptionManager L) (as : List A) :
    Accounts [] [] s (TransitionRuns.run f s as) :=
  run_invariant (I := fun t => Accounts [] [] s t) (fun t a h => h.trans (hf t a))
    (.same rfl rfl rfl) as

lemma handedOut_log (s : LiveSubscriptionManager L) (link : L) {via : Via} (push : Push)
    (hv : via ≠ .batched) : handedOut (s.log link via push) = handedOut s ++ [(link, push)] := by
  simp [handedOut,log,filter_append,hv]

lemma Accounts.defer (s : LiveSubscriptionManager L) (link : L) (push : Push) :
    Accounts (if s.deferHook = true ∧ (s.identityOf link).isSome then [(link, push)] else []) [] s
      (s.deferForDeadLink link push) := by
  unfold deferForDeadLink
  cases hho : s.deferHook with
  | false => exact .same rfl rfl rfl
  | true =>
    cases s.identityOf link with
    | none => exact .same rfl rfl rfl
    | some h =>
      refine ⟨rfl,fun p => ?_⟩
      have hw : waiting (s.log link (.deferred h) push) = waiting s := rfl
      simp only [Option.isSome_some,and_self,if_true]
      have hv : Via.deferred h ≠ .batched := nofun
      have hh := handedOut_log s link push hv
      rw [hw,hh,countP_append,countP_nil]
      omega

variable {net : Network L}

lemma Accounts.addToBatch (ha : net.active x.1 = true) (hp : x.2 = cdspProfileBatched) :
    Accounts [(x.1, push)] (cutFor net push s x) s (s.addToBatch x.1 push net.now) := by
  refine ⟨rfl,fun p => ?_⟩
  let events := s.batchEvents push.channelId x.1 ++ [(push, net.now)]
  let row : Batch L := ⟨push.channelId,x.1,keepNewest maxBatchEvents events⟩
  obtain ⟨before,after,ho,hn⟩ := s.batchBuffer.set_rows row
  have hh : handedOut (s.addToBatch x.1 push net.now) = handedOut s := by
    simp [handedOut,LiveSubscriptionManager.addToBatch,log,filter_append]
  have hw : waiting s = before.flatMap Batch.pushes ++
      (s.batchEvents push.channelId x.1).map (fun e => (x.1, e.1)) ++
        after.flatMap Batch.pushes := by
    rw [waiting,ho,flatMap_append,flatMap_append]
    congr 2
    have hk : (Batch.key row) = (push.channelId, x.1) := rfl
    rw [hk,batchEvents]
    cases hg : s.batchBuffer.get? (push.channelId, x.1) with
    | none => rfl
    | some b =>
      have hl : b.link = x.1 := congrArg Prod.snd (Table.get?_key hg)
      simp [Batch.pushes,hl]
  have hno : waiting (s.addToBatch x.1 push net.now) = before.flatMap Batch.pushes ++
      (keepNewest maxBatchEvents events).map (fun e => (x.1, e.1)) ++
        after.flatMap Batch.pushes := by
    have hr : (s.addToBatch x.1 push net.now).batchBuffer.rows = before ++ [row] ++ after := hn
    rw [waiting,hr,flatMap_append,flatMap_append]
    simp [Batch.pushes,row]
  have hs : events.take (events.length - maxBatchEvents) ++ keepNewest maxBatchEvents events =
      s.batchEvents push.channelId x.1 ++ [(push, net.now)] := take_append_drop _ _
  have hcu : cutFor net push s x =
      (events.take (events.length - maxBatchEvents)).map fun e => (x.1, e.1) := by
    rw [cutFor,if_pos ⟨ha,hp⟩]
  have hc := congrArg (fun l => (l.map fun e : Push × ℚ => (x.1, e.1)).countP p) hs
  simp only [map_append,countP_append,map_cons,map_nil] at hc
  rw [hh,hw,hno,hcu]
  simp only [countP_append]
  omega

lemma Accounts.send (s : LiveSubscriptionManager L) (link : L) (push : Push) (now : ℚ) :
    Accounts [] [] s (s.send link push now) := by
  refine ⟨rfl,fun p => ?_⟩
  have hh : handedOut (s.send link push now) = handedOut s ++ [(link, push)] :=
    handedOut_log { s with pushBuffer := s.pushBuffer.record link push now } link push (by decide)
  have hw : waiting (s.send link push now) = waiting s := rfl
  rw [hh,hw,countP_append]
  omega

lemma Accounts.mono (h : Accounts pushed cut s s') (hs : pushed'.Sublist pushed) :
    Accounts pushed' cut s s' := by
  refine ⟨h.hook,fun p => ?_⟩
  have hc := h.count p
  have hle := hs.countP_le (p := p)
  omega

lemma addressed_batched (h : x.2 = cdspProfileBatched) :
    addressed push s [x] = if (s.identityOf x.1).isSome = true then [(x.1, push)] else [] := by
  unfold addressed
  rw [filter_singleton]
  cases (s.identityOf x.1).isSome <;> simp [h]

lemma addressed_other (h : x.2 ≠ cdspProfileBatched) : addressed push s [x] = [] := by
  unfold addressed
  simp [h]

lemma addressed_sublist : (addressed push s [x]).Sublist
      (if (s.identityOf x.1).isSome = true then [(x.1, push)] else []) := by
  by_cases h : x.2 = cdspProfileBatched
  · rw [addressed_batched h]
  · rw [addressed_other h]
    exact nil_sublist _

lemma deliver_accounts (hh : s.deferHook = true) (net : Network L) (push : Push) (x : L × ℤ) :
    Accounts (addressed push s [x]) (cutFor net push s x) s (deliver net push s x) := by
  have hd := Accounts.defer s x.1 push
  simp only [hh,true_and] at hd
  unfold deliver
  split_ifs with hi hs hp hse
  · have hc : cutFor net push s x = [] :=
      if_neg fun h => Bool.false_ne_true (hi.symm.trans h.1)
    rw [hc]
    exact hd.mono addressed_sublist
  · have hp : x.2 ≠ cdspProfileBatched := by
      intro h
      simp [skips,h,cdspProfileBatched,cdspProfilePrioritized] at hs
    rw [addressed_other hp,cutFor,if_neg fun h => hp h.2]
    exact .same rfl rfl rfl
  · have ha : net.active x.1 = true := by simpa using hi
    refine (Accounts.addToBatch ha hp).mono ?_
    rw [addressed_batched hp]
    split_ifs
    · exact .refl _
    · exact nil_sublist _
  · rw [addressed_other hp,cutFor,if_neg fun h => hp h.2]
    exact .send s x.1 push net.now
  · rw [addressed_other hp,cutFor,if_neg fun h => hp h.2]
    exact hd.mono (nil_sublist _)

lemma deliver_identityOf {link : L} :
    (deliver net push s x).identityOf link = s.identityOf link := by
  unfold deliver deferForDeadLink
  split_ifs
  all_goals try split
  all_goals rfl

lemma deliverAll_accounts (hh : s.deferHook = true) :
    Accounts (addressed push s subs) (cutBy net push s subs) s (run (deliver net push) s subs) := by
  induction subs generalizing s with
  | nil => exact .same rfl rfl rfl
  | cons x xs ih =>
    have hf := deliver_accounts hh net push x
    have hr := ih (hf.hook.trans hh)
    have ha : addressed push s (x :: xs) =
        addressed push s [x] ++ addressed push (deliver net push s x) xs := by
      simp only [addressed,deliver_identityOf]
      rw [← map_append,← filter_append,singleton_append]
    rw [ha]
    exact hf.trans hr

lemma pushToSubscribers_accounts (hh : s.deferHook = true) :
    Accounts (addressed push s subs) (cutBy net push s subs) s
      (LiveDelivery.pushToSubscribers net push s subs) := by
  have hd : Accounts [] [] (run (deliver net push) s subs)
      (LiveDelivery.pushToSubscribers net push s subs) :=
    .run (f := unsubscribeAll) (fun _ _ => .same rfl rfl rfl) _ _
  have h := (deliverAll_accounts hh).trans hd
  rwa [append_nil,append_nil] at h

lemma handleLinkDeath_accounts (s : LiveSubscriptionManager L) (link : L) :
    Accounts [] [] s (handleLinkDeath s link) := by
  let drained := { s with pushBuffer := (s.pushBuffer.drain link).2 }
  have hr : Accounts [] [] drained
      (run (fun s x => deferForDeadLink s link x.2) drained (s.pushBuffer.drain link).1) := by
    apply Accounts.run
    intro t x
    exact (Accounts.defer t link x.2).mono (nil_sublist _)
  exact ⟨hr.hook,hr.count⟩

end

def deliverable (net : Network L) (reachable : String → Bool) (s : LiveSubscriptionManager L)
    (b : Batch L) : Bool :=
  ((s.live.getSubscribers b.channelId).any fun x =>
      x.1 = b.link && decide (x.2 = cdspProfileBatched) && net.active x.1 && net.sends x.1) ||
    (s.identityOf b.link).any reachable

lemma handedOut_logAll {s : LiveSubscriptionManager L} {link : L} {via : Via}
    (hv : via ≠ .batched) {events : List (Push × ℚ)} :
    handedOut (logAll s link via events) = handedOut s ++ events.map fun e => (link, e.1) := by
  induction events generalizing s with
  | nil => simp [logAll]
  | cons e es ih =>
    rw [logAll,run_cons,← logAll,ih,handedOut_log s link e.1 hv,append_assoc]
    rfl

variable {s : LiveSubscriptionManager L} {net : Network L} {re : String → Bool}
  {t : Tracked L}

lemma flushBatch_handedOut {b : Batch L} (h : deliverable net re s b = true) :
    handedOut (flushBatch net re s b) = handedOut s ++ Batch.pushes b := by
  unfold flushBatch
  simp only
  split_ifs with hl
  · exact handedOut_logAll (by decide)
  obtain hl' | hid := Bool.or_eq_true_iff.mp h
  · exact absurd hl' hl
  cases hi : s.identityOf b.link with
  | none => simp [hi] at hid
  | some i =>
    have hr : re i = true := by simpa [hi] using hid
    simp only [hr,if_true]
    have hv : Via.lxmf i ≠ .batched := nofun
    exact handedOut_logAll hv

lemma flushBatch_kept {V : Type} (read : LiveSubscriptionManager L → V)
    (hr : ∀ s link via push, read (log s link via push) = read s) (net : Network L)
    (re : String → Bool) (s : LiveSubscriptionManager L) (b : Batch L) :
    read (flushBatch net re s b) = read s := by
  have hl : ∀ via events, read (logAll s b.link via events) = read s := by
    intro via events
    exact run_invariant (I := fun t => read t = read s)
      (fun t e h => (hr t b.link via e.1).trans h) rfl events
  unfold flushBatch
  simp only
  split_ifs
  · exact hl .sent b.events
  split
  · split_ifs
    · exact hl _ b.events
    · rfl
  · rfl

lemma flushBatch_undeliverable {b : Batch L} (h : deliverable net re s b = false) :
    flushBatch net re s b = s := by
  obtain ⟨hl,hid⟩ := Bool.or_eq_false_iff.mp h
  unfold flushBatch
  simp only [hl,Bool.false_eq_true,if_false]
  cases hi : s.identityOf b.link with
  | none => rfl
  | some i =>
    have hr : re i = false := by simpa [hi] using hid
    simp [hr]

lemma flushAll_countP {batches : List (Batch L)} {p : L × Push → Bool}
    (h : ∀ b ∈ batches, (∃ x ∈ Batch.pushes b, p x = true) → deliverable net re s b = true) :
    (handedOut s).countP p + (batches.flatMap Batch.pushes).countP p ≤
      (handedOut (run (flushBatch net re) s batches)).countP p := by
  induction batches generalizing s with
  | nil => simp
  | cons b bs ih =>
    have hr := ih (s := flushBatch net re s b) fun c hc hx =>
      (flushBatch_kept (fun t => deliverable net re t c) (fun _ _ _ _ => rfl) net re s b).trans
        (h c (mem_cons_of_mem b hc) hx)
    rw [run_cons,flatMap_cons,countP_append]
    cases hd : deliverable net re s b with
    | true =>
      rw [flushBatch_handedOut hd,countP_append] at hr
      omega
    | false =>
      have hz : (Batch.pushes b).countP p = 0 := by
        rw [countP_eq_zero]
        intro x hx hp
        exact Bool.false_ne_true (hd.symm.trans (h b mem_cons_self ⟨x,hx,hp⟩))
      rw [flushBatch_undeliverable hd] at hr ⊢
      omega

lemma flushBatches_batchBuffer (net : Network L) (re : String → Bool)
    (s : LiveSubscriptionManager L) : (flushBatches net re s).batchBuffer = .empty ∧
      (flushBatches net re s).deferHook = s.deferHook := by
  let emptied := { s with batchBuffer := .empty }
  refine run_invariant (s := emptied) (I := fun t : LiveSubscriptionManager L =>
    t.batchBuffer = .empty ∧ t.deferHook = s.deferHook) ?_ ⟨rfl,rfl⟩ s.batchBuffer.rows
  intro t b ht
  have hb := flushBatch_kept LiveSubscriptionManager.batchBuffer (fun _ _ _ _ => rfl) net re t b
  have hh := flushBatch_kept LiveSubscriptionManager.deferHook (fun _ _ _ _ => rfl) net re t b
  exact ⟨hb.trans ht.1,hh.trans ht.2⟩

/-- A flush can deliver every batch of a link to which something was pushed while it had an
identity. -/
def Flushable (t : Tracked L) : Operation L → Prop
  | .operation _ => True
  | .flushBatches net reachable =>
    ∀ b ∈ t.manager.batchBuffer.rows, (∃ x ∈ t.pushed, x.1 = b.link) →
      deliverable net reachable t.manager b = true

instance (t : Tracked L) : (op : Operation L) → Decidable (Flushable t op)
  | .operation _ => isTrue trivial
  | .flushBatches _ _ => inferInstanceAs (Decidable (∀ b ∈ _, (∃ x ∈ _, _) → _))

structure Lossless (t : Tracked L) : Prop where
  hook : t.manager.deferHook = true
  count : ∀ p, t.pushed.countP p ≤
    (handedOut t.manager).countP p + (waiting t.manager).countP p + t.cut.countP p

variable {m : LiveSubscriptionManager L}

lemma Lossless.accounts (ht : Lossless t) {pushed cut : List (L × Push)}
    (h : Accounts pushed cut t.manager m) : Lossless ⟨m,t.pushed ++ pushed,t.cut ++ cut⟩ := by
  refine ⟨h.hook.trans ht.hook,fun p => ?_⟩
  have hb := ht.count p
  have hs := h.count p
  simp only [countP_append]
  omega

lemma Lossless.silent (ht : Lossless t) (h : Accounts [] [] t.manager m) :
    Lossless { t with manager := m } := by
  have hn := ht.accounts h
  rwa [append_nil,append_nil] at hn

lemma Lossless.trackPush (ht : Lossless t) (net : Network L) (call : Push × List (L × ℤ)) :
    Lossless (trackPush net t call) :=
  ht.accounts (pushToSubscribers_accounts ht.hook)

lemma step_lossless (t : Tracked L) (op : Operation L) (ht : Lossless t)
    (hop : Flushable t op) : Lossless (step t op) := by
  cases op with
  | operation op =>
    cases op with
    | subscribe channelId link syncProfile identityHash supports =>
      simp only [step]
      split
      · exact ht
      next manager hs =>
        obtain ⟨live,-,rfl⟩ := Option.map_eq_some_iff.mp hs
        exact ht.silent (.same rfl rfl rfl)
    | unsubscribe channelId link => exact ht.silent (.same rfl rfl rfl)
    | unsubscribeAll link => exact ht.silent (.same rfl rfl rfl)
    | pushMessage prim sealedManager net channelId m senderPublicKey =>
      exact run_invariant (fun t call h => h.trackPush net call) ht _
    | pushEvent net push => exact ht.trackPush net _
    | linkDeath link => exact ht.silent (handleLinkDeath_accounts t.manager link)
  | flushBatches net re =>
    obtain ⟨he,hh⟩ := flushBatches_batchBuffer net re t.manager
    refine ⟨hh.trans ht.hook,fun p => ?_⟩
    -- The events that are lost belong to links to which nothing counted was pushed.
    let counted := fun x : L × Push => p x && t.pushed.any fun y => y.1 = x.1
    have hle : t.pushed.countP p ≤ t.pushed.countP counted :=
      countP_mono_left fun x hx hp => by
        simp only [counted,hp,Bool.true_and,any_eq_true]
        exact ⟨x,hx,decide_eq_true rfl⟩
    have hfl : (handedOut t.manager).countP counted + (waiting t.manager).countP counted ≤
        (handedOut (flushBatches net re t.manager)).countP counted := by
      refine flushAll_countP (s := { t.manager with batchBuffer := .empty }) fun b hb hx => ?_
      obtain ⟨x,hx,hc⟩ := hx
      obtain ⟨e,-,rfl⟩ := mem_map.mp hx
      obtain ⟨y,hy,hyl⟩ := any_eq_true.mp (Bool.and_eq_true_iff.mp hc).2
      exact hop b hb ⟨y,hy,of_decide_eq_true hyl⟩
    have hof : ∀ l : List (L × Push), l.countP counted ≤ l.countP p := fun l =>
      countP_mono_left fun x _ hc => (Bool.and_eq_true_iff.mp hc).1
    have hc := ht.count counted
    have hcut := hof t.cut
    have hout := hof (handedOut (flushBatches net re t.manager))
    simp only [step]
    omega

/-- If every flush can deliver the batches of identified subscribers, everything that was pushed to
one of them was handed out after a flush, except for what fell out of a full batch. -/
theorem batched_events_kept {ops : List (Operation L)} {net : Network L} {reachable : String → Bool}
    (h : Guarded step Flushable ({} : Tracked L) (ops ++ [.flushBatches net reachable]))
    (p : L × Push → Bool) :
    let t := run step ({} : Tracked L) (ops ++ [.flushBatches net reachable])
    t.pushed.countP p ≤ (handedOut t.manager).countP p + t.cut.countP p := by
  intro t
  have hs : Lossless ({} : Tracked L) := ⟨rfl,fun _ => Nat.zero_le _⟩
  have hc := (h.invariant step_lossless hs).count p
  have he : waiting t.manager = [] := by
    have hb := (flushBatches_batchBuffer net reachable (run step ({} : Tracked L) ops).manager).1
    simp only [t,run_append,run_cons,run_nil,step]
    rw [waiting,hb]
    rfl
  rw [he,countP_nil,Nat.add_zero] at hc
  exact hc

def quiet : Network ℕ := ⟨fun _ => true,fun _ => true,10⟩

def posted : Push := ⟨"general","message",[],none⟩

def batchedPush : List (Operation ℕ) := [
  .operation (.subscribe "general" 7 cdspProfileBatched (some "alice") false),
  .operation (.pushEvent quiet posted)]

theorem batch_of_closed_link_lost :
    let t := run step ({} : Tracked ℕ)
      (batchedPush ++ [.operation (.linkDeath 7)] ++ [.flushBatches quiet fun _ => true])
    t.pushed.countP (fun x => x.1 = 7) = 1 ∧ t.cut.length = 0 ∧
      (handedOut t.manager).length = 0 := by
  decide +kernel

theorem batch_of_open_link_kept :
    let t := run step ({} : Tracked ℕ) (batchedPush ++ [.flushBatches quiet fun _ => true])
    t.pushed.countP (fun x => x.1 = 7) = 1 ∧ t.pushed.countP (fun x => x.1 = 7) ≤
        (handedOut t.manager).countP (fun x => x.1 = 7) + t.cut.countP (fun x => x.1 = 7) :=
  ⟨by decide +kernel,batched_events_kept (by decide +kernel) fun x => x.1 = 7⟩

end Hokora.BatchedEvents
