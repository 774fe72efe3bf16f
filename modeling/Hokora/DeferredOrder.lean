import Mathlib.Data.List.Pairwise
import Hokora.CdspSessions

/-!
# The order of deferred events

The storage task of each event is cut at its awaits, and the tasks interleave.
-/
namespace Hokora.DeferredOrder
open CdspSessions Constants KeyedTable List PyValue ReadHandlers TransitionRuns
open CdspStore (flushesBefore queue)
open List.Sublist (refl)

structure HookCall where
  channelId : String
  eventType : String
  data : Entry

inductive Progress where
  | scheduled
  | found (sess : CdspSession)
  | counted (sess : CdspSession) (count : ℕ)

structure Task where
  call : HookCall
  progress : Progress := .scheduled

structure Node where
  store : CdspStore
  tasks : List Task := []
  calls : List HookCall := []

def storeEvent (limit : ℕ) (s : CdspStore) (sess : CdspSession) (count : ℕ) (call : HookCall)
    (now : ℚ) : CdspStore :=
  if (s.sessions.get? sess.sessionId).isNone then s
  else
    let room := if limit ≤ count then s.evictOldest sess.sessionId (limit - 1) else s
    room.enqueue sess.sessionId (some call.channelId) syncLiveEvent
      (.wireHex call.eventType call.data) sess.expiresAt now

inductive StoreOp where
  | sessionInit (identityHash : String) (req : SessionInit) (draw : SessionDraw) (now : ℚ)
  | profileUpdate (sessionId : String) (newProfile : ℤ) (now : ℚ)
  | deferRequest (identityHash : String) (channelId : Option String) (action : ℤ) (payload : Val)
      (now : ℚ)
  | cleanup (maxAge now : ℚ)

def StoreOp.apply (limit : ℕ) (timeout : ℚ) (s : CdspStore) : StoreOp → CdspStore
  | .sessionInit identityHash req draw now =>
    match handleSessionInit timeout s identityHash req draw now with
    | .ok (s', _) => s'
    | .error _ => s
  | .profileUpdate sessionId newProfile now => (handleProfileUpdate s sessionId newProfile now).1
  | .deferRequest identityHash channelId action payload now =>
    s.deferSyncItem limit identityHash channelId action payload now
  | .cleanup maxAge now => s.cleanupExpired maxAge now

inductive Label where
  | hook (call : HookCall)
  | advance (k : ℕ) (now : ℚ)
  | fail (k : ℕ)
  | other (op : StoreOp)

section
variable (limit : ℕ) (timeout : ℚ) (identityHash : String)

def advance (n : Node) (k : ℕ) (now : ℚ) (t : Task) : Node :=
  match t.progress with
  | .scheduled =>
    match n.store.getActiveSession identityHash with
    | none => { n with tasks := n.tasks.eraseIdx k }
    | some sess => { n with tasks := n.tasks.set k { t with progress := .found sess } }
  | .found sess =>
    let count := (n.store.queue sess.sessionId).length
    { n with tasks := n.tasks.set k { t with progress := .counted sess count } }
  | .counted sess count =>
    { n with
      store := storeEvent limit n.store sess count t.call now
      tasks := n.tasks.eraseIdx k }

def step (n : Node) : Label → Node
  | .hook call => { n with tasks := n.tasks ++ [{ call := call }], calls := n.calls ++ [call] }
  | .advance k now =>
    match n.tasks[k]? with
    | none => n
    | some t => advance limit identityHash n k now t
  | .fail k => { n with tasks := n.tasks.eraseIdx k }
  | .other op => { n with store := op.apply limit timeout n.store }

end

def callOf (i : DeferredSyncItem) : Option HookCall :=
  match i.payload, i.channelId with
  | .wireHex eventType data, some channelId => some ⟨channelId,eventType,data⟩
  | _, _ => none

structure FlushAnswer (s : CdspStore) (sessionId : String) (items : List DeferredSyncItem) :
    Prop where
  rows : items.Perm (s.queue sessionId)
  order : items.Pairwise flushesBefore

/-- Whatever a flush of the session returns is in the order of the calls. -/
def InOrder (n : Node) (sessionId : String) : Prop :=
  ∀ items, FlushAnswer n.store sessionId items → (items.filterMap callOf).Sublist n.calls

def Task.target (t : Task) : Option CdspSession :=
  match t.progress with
  | .counted sess _ => some sess
  | _ => none

/-- An event is stored when no earlier one waits, and later than those in the queue. -/
def Punctual (n : Node) : Label → Prop
  | .advance k now =>
    ∀ sess ∈ n.tasks[k]?.bind Task.target,
      k = 0 ∧ ∀ i ∈ n.store.queue sess.sessionId, i.payload.isEvent = true → i.createdAt < now
  | _ => True

instance (n : Node) : (l : Label) → Decidable (Punctual n l)
  | .hook _ => isTrue trivial
  | .advance _ _ => inferInstanceAs (Decidable (∀ sess ∈ _, _ ∧ ∀ i ∈ _, _ → _))
  | .fail _ | .other _ => isTrue trivial

variable {s : CdspStore} {sessionId : String}

lemma flushForSession_answer : FlushAnswer s sessionId (s.flushForSession sessionId).1 := by
  have ht : Std.Total flushesBefore := by
    refine ⟨fun a b => ?_⟩
    rcases lt_trichotomy a.priority b.priority with h | h | h
    · exact .inr (.inl h)
    · rcases le_total a.createdAt b.createdAt with h' | h'
      · exact .inl (.inr ⟨h,h'⟩)
      · exact .inr (.inr ⟨h.symm,h'⟩)
    · exact .inl (.inl h)
  have htr : IsTrans DeferredSyncItem flushesBefore := by
    refine ⟨fun a b c hab hbc => ?_⟩
    rcases hab with hab | ⟨hab,hab'⟩ <;> rcases hbc with hbc | ⟨hbc,hbc'⟩
    · exact .inl (hbc.trans hab)
    · exact .inl (hbc ▸ hab)
    · exact .inl (hab ▸ hbc)
    · exact .inr ⟨hab.trans hbc,hab'.trans hbc'⟩
  exact ⟨perm_insertionSort _ _,pairwise_insertionSort _ _⟩

def events (s : CdspStore) (sessionId : String) : List DeferredSyncItem :=
  (s.deferred.filter fun i => i.payload.isEvent).filter fun i => i.sessionId = sessionId

lemma mem_events {i : DeferredSyncItem} :
    i ∈ events s sessionId ↔ i ∈ s.queue sessionId ∧ i.payload.isEvent = true := by
  simp only [events,queue,mem_filter,decide_eq_true_eq]
  tauto

lemma events_eq : events s sessionId = (s.queue sessionId).filter fun i => i.payload.isEvent := by
  unfold events queue
  rw [filter_comm]

lemma callOf_filter {items : List DeferredSyncItem} :
    (items.filter fun i => i.payload.isEvent).filterMap callOf = items.filterMap callOf := by
  rw [filterMap_filter]
  congr 1
  funext i
  cases hp : i.payload with
  | wireHex eventType data => simp [ItemPayload.isEvent]
  | request payload => simp [ItemPayload.isEvent,callOf,hp]

section
variable {s s' : CdspStore} {sessionId : String}

lemma enqueue_item (s : CdspStore) (sid : String) (ch : Option String) (syncAction : ℤ)
    (p : ItemPayload) (ttl : Option ℚ) (now : ℚ) :
    ∃ item, (s.enqueue sid ch syncAction p ttl now).deferred = s.deferred ++ [item] ∧
      item.sessionId = sid ∧ item.channelId = ch ∧ item.payload = p ∧
      item.priority = 0 ∧ item.createdAt = now := ⟨_,rfl,rfl,rfl,rfl,rfl,rfl⟩

/-- Rows may only go, or be requests. -/
def Shrinks (s s' : CdspStore) : Prop :=
  (s'.deferred.filter fun i => i.payload.isEvent).Sublist
    (s.deferred.filter fun i => i.payload.isEvent)

lemma Shrinks.events (h : Shrinks s s') (sid : String) :
    (events s' sid).Sublist (events s sid) := h.filter _

lemma Shrinks.of_sublist (h : s'.deferred.Sublist s.deferred) : Shrinks s s' := h.filter _

lemma Shrinks.evictOldest (s : CdspStore) (sid : String) (keepLimit : ℕ) :
    Shrinks s (s.evictOldest sid keepLimit) := by
  refine .of_sublist ?_
  unfold CdspStore.evictOldest
  simp only
  split_ifs
  · exact refl _
  · exact filter_sublist

lemma Shrinks.flushSession (s : CdspStore) (sid : String) (profile : ℤ) (now : ℚ) :
    Shrinks s (flushSession s sid profile now).2 := .of_sublist filter_sublist

lemma Shrinks.deferSyncItem (s : CdspStore) (limit : ℕ) (i : String)
    (ch : Option String) (action : ℤ) (p : Val) (now : ℚ) :
    Shrinks s (s.deferSyncItem limit i ch action p now) := by
  have ha : ∀ (t : CdspStore) (sid : String) (ttl : Option ℚ), Shrinks s t →
      Shrinks s (t.enqueue sid ch action (.request p) ttl now) := by
    intro t sid ttl h
    obtain ⟨item,hd,-,-,hp,-,-⟩ :=
      enqueue_item t sid ch action (.request p) ttl now
    have he : item.payload.isEvent = false := by rw [hp]; rfl
    unfold Shrinks
    rw [hd,filter_append,filter_singleton,he,cond_false,append_nil]
    exact h
  unfold CdspStore.deferSyncItem
  split
  · exact refl _
  next sess _ =>
    have hq : Shrinks s (s.enqueueBounded limit sess ch action (.request p) now) := by
      unfold CdspStore.enqueueBounded
      split_ifs
      · exact ha _ _ _ (.evictOldest s _ _)
      · exact ha _ _ _ (refl _)
    exact hq

lemma Shrinks.apply (limit : ℕ) (timeout : ℚ) (s : CdspStore) (op : StoreOp) :
    Shrinks s (op.apply limit timeout s) := by
  cases op with
  | sessionInit identityHash req draw now =>
    simp only [StoreOp.apply]
    split
    next s' answer hok =>
      rcases handleSessionInit_cases hok with ⟨-,rfl,-⟩ | ⟨-,x,-,rfl,-⟩ | ⟨-,-,sessions,-,rfl,-⟩
      · exact refl _
      · exact .flushSession s x.sessionId req.syncProfile now
      refine .of_sublist ?_
      unfold closePrevious
      split <;> exact refl _
    · exact refl _
  | profileUpdate sid np now =>
    simp only [StoreOp.apply]
    rcases handleProfileUpdate_cases with
      ⟨-,code,hr⟩ | ⟨-,⟨-,hr⟩ | ⟨count,hr⟩⟩
    · rw [hr]
      exact refl _
    · rw [hr]
      exact .flushSession s sid np now
    · rw [hr]
      exact refl _
  | deferRequest identityHash channelId action payload now =>
    exact .deferSyncItem s limit identityHash channelId action payload now
  | cleanup maxAge now => exact .of_sublist filter_sublist

lemma storeEvent_events (limit : ℕ) (s : CdspStore) (sess : CdspSession) (count : ℕ)
    (call : HookCall) (now : ℚ) (sid : String) : ∃ kept, kept.Sublist (events s sid) ∧
      (events (storeEvent limit s sess count call now) sid = kept ∨
        sess.sessionId = sid ∧ ∃ item, callOf item = some call ∧ item.createdAt = now ∧
          item.priority = 0 ∧
          events (storeEvent limit s sess count call now) sid = kept ++ [item]) := by
  unfold storeEvent
  by_cases hg : (s.sessions.get? sess.sessionId).isNone = true
  · rw [if_pos hg]
    exact ⟨_,refl _,.inl rfl⟩
  rw [if_neg hg]
  have hr : Shrinks s (if limit ≤ count then s.evictOldest sess.sessionId (limit - 1) else s) := by
    split_ifs
    · exact .evictOldest s _ _
    · exact refl _
  generalize (if limit ≤ count then s.evictOldest sess.sessionId (limit - 1) else s) = room at hr
  obtain ⟨item,hd,hs,hc,hp,hpr,hcr⟩ :=
    enqueue_item room sess.sessionId (some call.channelId) syncLiveEvent
      (.wireHex call.eventType call.data) sess.expiresAt now
  have he : item.payload.isEvent = true := by rw [hp]; rfl
  refine ⟨events room sid,hr.events sid,?_⟩
  simp only [events,hd,filter_append,filter_singleton,he]
  by_cases hm : sess.sessionId = sid
  · refine .inr ⟨hm,item,?_,hcr,hpr,?_⟩
    · rw [callOf,hp,hc]
    · simp [hs,hm]
  · left
    simp [hs,hm]

end

structure Queued (sessionId : String) (n : Node) : Prop where
  calls : ((events n.store sessionId).filterMap callOf ++ n.tasks.map Task.call).Sublist n.calls
  times : (events n.store sessionId).Pairwise fun a b => a.createdAt < b.createdAt
  priority : ∀ i ∈ events n.store sessionId, i.priority = 0

section
variable {sessionId : String} {n : Node}

lemma Queued.withTasks (h : Queued sessionId n) {tasks : List Task}
    (ht : (tasks.map Task.call).Sublist (n.tasks.map Task.call)) :
    Queued sessionId { n with tasks := tasks } :=
  ⟨((refl _).append ht).trans h.calls,h.times,h.priority⟩

lemma Queued.withStore (h : Queued sessionId n) {store : CdspStore}
    (he : (events store sessionId).Sublist (events n.store sessionId)) :
    Queued sessionId { n with store := store } := by
  refine ⟨?_,h.times.sublist he,fun i hi => h.priority i (he.subset hi)⟩
  exact ((he.filterMap callOf).append (refl _)).trans h.calls

lemma map_call_set {tasks : List Task} {k : ℕ} {t : Task} (ht : tasks[k]? = some t)
    {p : Progress} : (tasks.set k { t with progress := p }).map Task.call =
      tasks.map Task.call := by
  refine ext_getElem? fun j => ?_
  rw [List.getElem?_map,List.getElem?_map,List.getElem?_set]
  split_ifs with hj hk
  · rw [← hj,ht]
    rfl
  · rw [List.getElem?_eq_none (not_lt.mp hk)] at ht
    cases ht
  · rfl

lemma Queued.step (h : Queued sessionId n) (limit : ℕ) (timeout : ℚ) (ih : String)
    (l : Label) (hok : Punctual n l) :
    Queued sessionId (step limit timeout ih n l) := by
  cases l with
  | hook call =>
    refine ⟨?_,h.times,h.priority⟩
    simp only [DeferredOrder.step,map_append,← append_assoc]
    exact h.calls.append (refl _)
  | fail k => exact h.withTasks ((eraseIdx_sublist n.tasks k).map _)
  | other op => exact h.withStore ((Shrinks.apply limit timeout n.store op).events sessionId)
  | advance k now =>
    simp only [DeferredOrder.step]
    cases ht : n.tasks[k]? with
    | none => exact h
    | some t =>
      simp only [DeferredOrder.advance]
      cases hp : t.progress with
      | scheduled =>
        simp only
        cases n.store.getActiveSession ih with
        | none => exact h.withTasks ((eraseIdx_sublist n.tasks k).map _)
        | some sess =>
          refine h.withTasks ?_
          rw [map_call_set ht]
      | found sess =>
        refine h.withTasks ?_
        rw [map_call_set ht]
      | counted sess count =>
        -- The task is the oldest one, so its event goes behind the stored ones.
        obtain ⟨rfl,hl⟩ := hok sess (by
          rw [ht,Option.bind_some,Task.target,hp]
          rfl)
        obtain ⟨rest,hr⟩ : ∃ rest, n.tasks = t :: rest := by
          cases hta : n.tasks with
          | nil =>
            rw [hta] at ht
            cases ht
          | cons u rest =>
            rw [hta] at ht
            cases ht
            exact ⟨rest,rfl⟩
        have hc := h.calls
        rw [hr,map_cons] at hc
        simp only [hr,eraseIdx_cons_zero]
        obtain ⟨kept,hk,hs | ⟨hsi,item,hca,hn,hpr,hs⟩⟩ :=
          storeEvent_events limit n.store sess count t.call now sessionId
        · refine ⟨?_,hs ▸ h.times.sublist hk,fun i hi => ?_⟩
          · simp only [hs]
            exact ((hk.filterMap callOf).append (sublist_cons_self _ _)).trans hc
          · rw [hs] at hi
            exact h.priority i (hk.subset hi)
        refine ⟨?_,?_,fun i hi => ?_⟩
        · simp only [hs,filterMap_append,append_assoc]
          refine ((hk.filterMap callOf).append ?_).trans hc
          rw [filterMap_cons_some hca]
          exact refl _
        · rw [hs,pairwise_append]
          refine ⟨h.times.sublist hk,pairwise_singleton _ _,fun a ha b hb => ?_⟩
          rw [mem_singleton.mp hb,hn]
          obtain ⟨hq,he⟩ := mem_events.mp (hk.subset ha)
          exact hl a (hsi ▸ hq) he
        · rw [hs] at hi
          rcases mem_append.mp hi with ho | hne
          · exact h.priority i (hk.subset ho)
          · rw [mem_singleton.mp hne]
            exact hpr

lemma Queued.inOrder (h : Queued sessionId n) : InOrder n sessionId := by
  intro items hf
  have hp : (items.filter fun i => i.payload.isEvent).Perm (events n.store sessionId) := by
    rw [events_eq]
    exact hf.rows.filter _
  have hs : (events n.store sessionId).Pairwise flushesBefore := by
    refine h.times.imp_of_mem fun ha hb hlt => .inr ⟨?_,le_of_lt hlt⟩
    rw [h.priority _ ha,h.priority _ hb]
  have heq : (items.filter fun i => i.payload.isEvent) = events n.store sessionId := by
    refine hp.eq_of_pairwise (fun a b ha hb hab hba => ?_) (hf.order.filter _) hs
    have ha' := hp.mem_iff.mp ha
    have hpr : a.priority = b.priority := (h.priority a ha').trans (h.priority b hb).symm
    have hle : a.createdAt ≤ b.createdAt := (hab.resolve_left hpr.not_gt).2
    have hge : b.createdAt ≤ a.createdAt := (hba.resolve_left hpr.symm.not_gt).2
    have hd : (events n.store sessionId).Pairwise fun a b => a.createdAt ≠ b.createdAt :=
      h.times.imp ne_of_lt
    have hsy : Std.Symm fun a b : DeferredSyncItem => a.createdAt ≠ b.createdAt :=
      ⟨fun _ _ h => h.symm⟩
    by_contra hne
    exact hd.forall ha' hb hne (le_antisymm hle hge)
  rw [← callOf_filter,heq]
  exact ((sublist_append_left _ _).trans h.calls)

end

/-- In every run in which the events are stored in the order of the calls, each at a later time,
a session without earlier events returns them in that order, whenever it is flushed. -/
theorem deferredEvents_inOrder (limit : ℕ) (timeout : ℚ) (identityHash : String) {s : CdspStore}
    {sessionId : String} (hnew : ∀ i ∈ s.queue sessionId, i.payload.isEvent = false)
    {ls : List Label}
    (hrun : Guarded (step limit timeout identityHash) Punctual { store := s } ls) :
    InOrder (run (step limit timeout identityHash) { store := s } ls) sessionId := by
  have he : events s sessionId = [] := by
    rw [events_eq,filter_eq_nil_iff]
    intro i hi
    rw [hnew i hi]
    exact Bool.false_ne_true
  have hs : Queued sessionId { store := s } := by
    refine ⟨?_,?_,?_⟩
    · simp only [he]
      exact refl _
    · rw [he]
      exact List.Pairwise.nil
    · simp only [he]
      exact fun i hi => absurd hi not_mem_nil
  exact (Guarded.invariant (fun n l h hok => h.step limit timeout identityHash l hok) hs
    hrun).inOrder

def aliceSession : CdspSession :=
  { sessionId := "a11ce", identityHash := "alice", syncProfile := cdspProfileFull,
    resumeToken := some [1], lastActivity := 1, expiresAt := none }

def aliceStore : CdspStore := { sessions := .singleton aliceSession }

def firstCall : HookCall := ⟨"board","message",[]⟩
def secondCall : HookCall := ⟨"board","message_updated",[]⟩

def bothReady : List Label :=
  [.hook firstCall, .hook secondCall, .advance 0 2, .advance 1 2, .advance 0 2, .advance 1 2]

def swapped : List Label := bothReady ++ [.advance 1 3, .advance 0 4]

def simultaneous : List Label := bothReady ++ [.advance 0 3, .advance 0 3]

theorem events_swapped :
    ¬ InOrder (run (step 1000 3600 "alice") { store := aliceStore } swapped) "a11ce" ∧
      ¬ InOrder (run (step 1000 3600 "alice") { store := aliceStore } simultaneous) "a11ce" := by
  constructor
  · intro h
    have hs := (h _ flushForSession_answer).map HookCall.eventType
    exact absurd hs (by decide +kernel)
  intro h
  have hs := (h _ ⟨reverse_perm _,by decide +kernel⟩).map HookCall.eventType
  exact absurd hs (by decide +kernel)

theorem events_kept : InOrder (run (step 1000 3600 "alice") { store := aliceStore }
      (bothReady ++ [.advance 0 3, .advance 0 4])) "a11ce" := by
  refine deferredEvents_inOrder 1000 3600 "alice" (fun i hi => absurd hi not_mem_nil) ?_
  decide +kernel

end Hokora.DeferredOrder
