import Hokora.HandshakeInitiator
import Hokora.TransitionRuns

/-!
# The connection of a mirror

Any number of threads, one access to shared state a step; links and timers report when they like.
-/
namespace Hokora.MirrorConnection
open HandshakeInitiator TransitionRuns
open Function (update update_apply update_of_ne update_self)

def busy : MirrorState → Bool
  | .connecting | .linked => true
  | _ => false

inductive Phase where
  | idle
  -- `start`
  | setRunning
  | setReticulum
  -- `_connect`
  | connect
  | recallIdentity
  | park
  | constructLink
  | closeState
  | storeLink (link : ℕ)
  -- `_schedule_retry`
  | schedule
  | checkTimer
  | cancelTimer
  | delay
  | loadAttempt
  | storeAttempt (attempt : ℕ)
  | assignTimer
  | daemonTimer
  | startTimer
  -- `wake`
  | wake
  | wakeState
  | wakeCheck
  | wakeCancel
  | wakeClear
  -- the timer's function `_reconnect`
  | reconnect
  -- `_on_linked`
  | resetAttempt
  | setLinked
  | packetCallback
  -- `_on_closed`
  | setClosed (link : ℕ)
  | retryClosed
  deriving DecidableEq

inductive LinkStatus where
  | absent
  | constructed (task : ℕ)
  | stored
  | closing (task : ℕ)
  | closed
  deriving DecidableEq

def LinkStatus.outstanding : LinkStatus → Bool
  | .constructed _ | .stored => true
  | _ => false

inductive TimerStatus where
  | absent
  | created
  | cancelled
  | armed
  | finished
  deriving DecidableEq

def TimerStatus.cancel : TimerStatus → TimerStatus
  | .created => .cancelled
  | .armed => .finished
  | t => t

structure Node where
  running : Bool := false
  reticulum : Bool := false
  state : MirrorState := .idle
  link : Option ℕ := none
  timer : Option ℕ := none
  attempt : ℕ := 0
  links : ℕ → LinkStatus := fun _ => .absent
  timers : ℕ → TimerStatus := fun _ => .absent
  tasks : ℕ → Phase := fun _ => .idle

def Node.goto (s : Node) (i : ℕ) (phase : Phase) : Node :=
  { s with tasks := update s.tasks i phase }

lemma goto_tasks_self {s : Node} {i : ℕ} {phase : Phase} : (s.goto i phase).tasks i = phase :=
  update_self ..

lemma goto_tasks_ne {s : Node} {i j : ℕ} {phase : Phase} (h : j ≠ i) :
    (s.goto i phase).tasks j = s.tasks j := update_of_ne h ..

def Node.setLink (s : Node) (link : ℕ) (status : LinkStatus) : Node :=
  { s with links := update s.links link status }

def Node.setTimer (s : Node) (timer : ℕ) (status : TimerStatus) : Node :=
  { s with timers := update s.timers timer status }

def Node.cancel (s : Node) : Node :=
  match s.timer with
  | none => s
  | some t => s.setTimer t (s.timers t).cancel

def overflowAttempt : ℕ := 1024

/-- One statement of a task: what stands between two points where another thread can take over. -/
def Node.next (s : Node) (i : ℕ) : Phase → Node
  | .setRunning => { s with running := true }.goto i .setReticulum
  | .setReticulum => { s with reticulum := true }.goto i .connect
  | .connect =>
    if s.running && !busy s.state then
      { s with state := .connecting }.goto i .recallIdentity
    else s.goto i .idle
  | .park => { s with state := .waitingForPath }.goto i .schedule
  | .closeState => { s with state := .closed }.goto i .schedule
  | .storeLink link => ({ s with link := some link }.setLink link .stored).goto i .idle
  | .schedule => s.goto i (if s.running then .checkTimer else .idle)
  | .checkTimer => s.goto i (if s.timer.isSome then .cancelTimer else .delay)
  | .cancelTimer => s.cancel.goto i .delay
  | .delay => s.goto i (if s.attempt < overflowAttempt then .loadAttempt else .idle)
  | .loadAttempt => s.goto i (.storeAttempt s.attempt)
  | .storeAttempt attempt => { s with attempt := attempt + 1 }.goto i .assignTimer
  | .daemonTimer =>
    match s.timer with
    | none => s.goto i .idle
    | some t =>
      match s.timers t with
      | .created | .cancelled => s.goto i .startTimer
      -- the thread of the timer was started by another scheduler
      | _ => s.goto i .idle
  | .startTimer =>
    match s.timer with
    | none => s.goto i .idle
    | some t =>
      match s.timers t with
      | .created => (s.setTimer t .armed).goto i .idle
      | .cancelled => (s.setTimer t .finished).goto i .idle
      | _ => s.goto i .idle
  | .wake => s.goto i (if s.running then .wakeState else .idle)
  | .wakeState =>
    s.goto i (if s.state = .waitingForPath ∨ s.state = .closed then .wakeCheck else .idle)
  | .wakeCheck => s.goto i (if s.timer.isSome then .wakeCancel else .connect)
  | .wakeCancel => s.cancel.goto i .wakeClear
  | .wakeClear => { s with timer := none }.goto i .connect
  | .reconnect => s.goto i (if s.running && s.reticulum then .connect else .idle)
  | .resetAttempt => { s with attempt := 0 }.goto i .setLinked
  | .setLinked => { s with state := .linked }.goto i .packetCallback
  | .packetCallback => s.goto i .idle
  | .setClosed link =>
    ({ s with state := .closed, link := none }.setLink link .closed).goto i .retryClosed
  | .retryClosed => s.goto i (if s.running then .schedule else .idle)
  -- these need an answer
  | .idle | .recallIdentity | .constructLink | .assignTimer => s

inductive Label where
  -- calls that begin on a new thread
  | start (i : ℕ)
  | wake (i : ℕ)
  | expire (i timer : ℕ)
  | onLinked (i link : ℕ)
  | onClosed (i link : ℕ)
  -- steps of a thread
  | next (i : ℕ)
  | recalled (i : ℕ) (found : Bool)
  | construct (i : ℕ) (link : Option ℕ)
  | assign (i timer : ℕ)

def Node.call (s : Node) (i : ℕ) (phase : Phase) : Node :=
  if s.tasks i = .idle then s.goto i phase else s

def step (s : Node) : Label → Node
  | .start i => s.call i .setRunning
  | .wake i => s.call i .wake
  | .expire i t =>
    if s.tasks i = .idle ∧ s.timers t = .armed then (s.setTimer t .finished).goto i .reconnect
    else s
  | .onLinked i link =>
    match s.links link with
    | .stored | .closing _ | .closed => s.call i .resetAttempt
    | _ => s
  | .onClosed i link =>
    if s.tasks i = .idle ∧ s.links link = .stored then
      (s.setLink link (.closing i)).goto i (.setClosed link)
    else s
  | .next i => s.next i (s.tasks i)
  | .recalled i found =>
    if s.tasks i = .recallIdentity then s.goto i (if found then .constructLink else .park) else s
  | .construct i none => if s.tasks i = .constructLink then s.goto i .closeState else s
  | .construct i (some link) =>
    if s.tasks i = .constructLink ∧ s.links link = .absent then
      (s.setLink link (.constructed i)).goto i (.storeLink link)
    else s
  | .assign i t =>
    if s.tasks i = .assignTimer ∧ s.timers t = .absent then
      ({ s with timer := some t }.setTimer t .created).goto i .daemonTimer
    else s

def fresh : Node := {}

def Node.Quiet (s : Node) : Prop := ∀ i, s.tasks i = .idle

def Node.Outstanding (s : Node) (link : ℕ) : Prop := (s.links link).outstanding = true

/-- One link and a state that has one, or none and a timer that will fire. -/
def Node.Settled (s : Node) : Prop :=
  ((∃! link, s.Outstanding link) ∧ (s.state = .connecting ∨ s.state = .linked)) ∨
    ((∀ link, ¬ s.Outstanding link) ∧ (s.state = .waitingForPath ∨ s.state = .closed) ∧
      ∃ t, s.timers t = .armed)

/-- `_on_linked` sets the state only while the mirror is connecting or linked, and a retry is
scheduled before the attempts overflow. -/
def Timely (s : Node) : Label → Prop
  | .next i =>
    (s.tasks i = .setLinked → busy s.state = true) ∧
      (s.tasks i = .delay → s.attempt < overflowAttempt)
  | _ => True

instance (s : Node) : (l : Label) → Decidable (Timely s l)
  | .next _ => inferInstanceAs (Decidable ((_ → _) ∧ (_ → _)))
  | .start _ | .wake _ | .expire _ _ | .onLinked _ _ | .onClosed _ _ | .recalled _ _
  | .construct _ _ | .assign _ _ => isTrue trivial

def Phase.connecting : Phase → Bool
  | .recallIdentity | .park | .constructLink | .closeState => true
  | _ => false

def Phase.holds : Phase → Bool
  | .storeLink _ | .setClosed _ => true
  | _ => false

def LinkStatus.live : LinkStatus → Bool
  | .constructed _ | .stored | .closing _ => true
  | _ => false

inductive Owner where
  | task (i : ℕ)
  | link (link : ℕ)

section Owners

variable {state state' : MirrorState} {tasks : ℕ → Phase} {links : ℕ → LinkStatus} {i link : ℕ}
  {phase : Phase} {status : LinkStatus}

def Owns (tasks : ℕ → Phase) (links : ℕ → LinkStatus) : Owner → Prop
  | .task i => (tasks i).connecting = true
  | .link link => (links link).live = true

structure Exclusive (state : MirrorState) (tasks : ℕ → Phase) (links : ℕ → LinkStatus) :
    Prop where
  unique : ∀ o o', Owns tasks links o → Owns tasks links o' → o = o'
  isBusy : ∀ o, Owns tasks links o → busy state = true
  storing : ∀ i link, tasks i = .storeLink link ↔ links link = .constructed i
  closing : ∀ i link, tasks i = .setClosed link ↔ links link = .closing i

lemma owns_goto {o : Owner} (h : Owns (update tasks i phase) links o) :
    (o = .task i ∧ phase.connecting = true) ∨ (Owns tasks links o ∧ o ≠ .task i) := by
  cases o with
  | task j =>
    rcases eq_or_ne j i with rfl | hne
    · rw [Owns,update_self] at h
      exact .inl ⟨rfl,h⟩
    · rw [Owns,update_of_ne hne] at h
      exact .inr ⟨h,fun e => hne (Owner.task.inj e)⟩
  | link l => exact .inr ⟨h,nofun⟩

lemma owns_setLink {o : Owner} (h : Owns tasks (update links link status) o) :
    (o = .link link ∧ status.live = true) ∨ (Owns tasks links o ∧ o ≠ .link link) := by
  cases o with
  | task j => exact .inr ⟨h,nofun⟩
  | link l =>
    rcases eq_or_ne l link with rfl | hne
    · rw [Owns,update_self] at h
      exact .inl ⟨rfl,h⟩
    · rw [Owns,update_of_ne hne] at h
      exact .inr ⟨h,fun e => hne (Owner.link.inj e)⟩

lemma holds_goto (ho : (tasks i).holds = false) (hn : phase.holds = false) {p : Phase}
    (hp : p.holds = true) {j : ℕ} : update tasks i phase j = p ↔ tasks j = p := by
  rcases eq_or_ne j i with rfl | hne
  · rw [update_self]
    refine iff_of_false (fun e => ?_) fun e => ?_
    · rw [e,hp] at hn
      cases hn
    · rw [e,hp] at ho
      cases ho
  · rw [update_of_ne hne]

lemma Exclusive.kept (h : Exclusive state tasks links) (ho : (tasks i).holds = false)
    (hn : phase.holds = false) (hu : ∀ o o', Owns (update tasks i phase) links o →
      Owns (update tasks i phase) links o' → o = o')
    (hb : ∀ o, Owns (update tasks i phase) links o → busy state' = true) :
    Exclusive state' (update tasks i phase) links where
  unique := hu
  isBusy := hb
  storing := fun j link => (holds_goto ho hn rfl).trans (h.storing j link)
  closing := fun j link => (holds_goto ho hn rfl).trans (h.closing j link)

lemma Exclusive.goto (h : Exclusive state tasks links)
    (hol : (tasks i).holds = false) (hn : phase.holds = false)
    (hf : phase.connecting = false) (hs : busy state = true → busy state' = true) :
    Exclusive state' (update tasks i phase) links := by
  have how : ∀ o, Owns (update tasks i phase) links o → Owns tasks links o := by
    intro o ho
    rcases owns_goto ho with ⟨-,hc⟩ | ⟨ho,-⟩
    · rw [hf] at hc
      cases hc
    · exact ho
  refine h.kept hol hn ?_ ?_
  · exact fun o o' ho ho' => h.unique o o' (how o ho) (how o' ho')
  · exact fun o ho => hs (h.isBusy o (how o ho))

lemma Exclusive.take (h : Exclusive state tasks links)
    (hol : (tasks i).holds = false) (hne : phase.holds = false)
    (hown : busy state = false ∨ (tasks i).connecting = true) (hs : busy state' = true) :
    Exclusive state' (update tasks i phase) links := by
  have hn : ∀ o, Owns tasks links o → o = .task i := by
    intro o ho
    rcases hown with hp | ht
    · rw [h.isBusy o ho] at hp
      cases hp
    · exact h.unique o (.task i) ho ht
  have how : ∀ o, Owns (update tasks i phase) links o → o = .task i := by
    intro o ho
    rcases owns_goto ho with ⟨rfl,-⟩ | ⟨ho,-⟩
    · rfl
    · exact hn o ho
  refine h.kept hol hne ?_ fun _ _ => hs
  exact fun o o' ho ho' => (how o ho).trans (how o' ho').symm

lemma Exclusive.release (h : Exclusive state tasks links)
    (hol : (tasks i).connecting = true) (hnew : phase.holds = false)
    (hf : phase.connecting = false) :
    Exclusive state' (update tasks i phase) links := by
  have hh : (tasks i).holds = false := by
    revert hol
    cases tasks i <;> simp [Phase.connecting,Phase.holds]
  have hn : ∀ o, ¬ Owns (update tasks i phase) links o := by
    intro o ho
    rcases owns_goto ho with ⟨-,hc⟩ | ⟨ho,hne⟩
    · rw [hf] at hc
      cases hc
    · exact hne (h.unique o (.task i) ho hol)
  exact h.kept hh hnew (fun o _ ho => (hn o ho).elim) fun o ho => (hn o ho).elim

inductive Hands (i link : ℕ) : Phase → LinkStatus → Phase → LinkStatus → Prop
  | construct : Hands i link .constructLink .absent (.storeLink link) (.constructed i)
  | store : Hands i link (.storeLink link) (.constructed i) .idle .stored
  | close : Hands i link .idle .stored (.setClosed link) (.closing i)
  | closed : Hands i link (.setClosed link) (.closing i) .retryClosed .closed

lemma Hands.owner (h : Hands i link (tasks i) (links link) phase status) :
    ∃ o, Owns tasks links o ∧ (o = .task i ∨ o = .link link) := by
  generalize ht : tasks i = old at h
  generalize hl : links link = was at h
  cases h with
  | construct => exact ⟨.task i,by rw [Owns,ht]; rfl,.inl rfl⟩
  | store | close | closed => exact ⟨.link link,by rw [Owns,hl]; rfl,.inr rfl⟩

lemma Exclusive.hand (h : Exclusive state tasks links)
    (hand : Hands i link (tasks i) (links link) phase status)
    (hs : status.live = true → state' = state) :
    Exclusive state' (update tasks i phase) (update links link status) := by
  have hst := h.storing
  have hcl := h.closing
  obtain ⟨owner,hown,hm⟩ := hand.owner
  generalize ht : tasks i = old at hand
  generalize hl : links link = was at hand
  have hf : phase.connecting = false := by cases hand <;> rfl
  have how : ∀ o, Owns (update tasks i phase) (update links link status) o →
      o = .link link ∧ status.live = true := by
    intro o ho
    rcases owns_setLink ho with hl | ⟨ho,hne⟩
    · exact hl
    rcases owns_goto ho with ⟨-,hc⟩ | ⟨ho,ht⟩
    · rw [hf] at hc
      cases hc
    · obtain rfl := h.unique o owner ho hown
      exact (hm.elim ht hne).elim
  constructor
  · exact fun o o' ho ho' => (how o ho).1.trans (how o' ho').1.symm
  · intro o ho
    rw [hs (how o ho).2]
    exact h.isBusy owner hown
  · intro j l
    cases hand <;> grind [update_apply]
  · intro j l
    cases hand <;> grind [update_apply]

end Owners

def Node.Sole (s : Node) : Prop := Exclusive s.state s.tasks s.links

section Sole

variable {s : Node} {i link : ℕ}

lemma outstanding_live (h : s.Outstanding link) : Owns s.tasks s.links (.link link) := by
  have hl : ∀ status : LinkStatus, status.outstanding = true → status.live = true := by
    intro status
    cases status <;> simp [LinkStatus.outstanding,LinkStatus.live]
  exact hl _ h

lemma Node.Sole.outstanding_unique (h : s.Sole) {link' : ℕ} (hl : s.Outstanding link)
    (hl' : s.Outstanding link') : link = link' :=
  Owner.link.inj (h.unique (.link link) (.link link') (outstanding_live hl) (outstanding_live hl'))

lemma Node.Sole.proceed (h : s.Sole) {old phase : Phase} (ht : s.tasks i = old)
    (hol : old.connecting = true) (hh : old.holds = false) (hn : phase.holds = false) :
    (s.goto i phase).Sole := by
  have ho : (s.tasks i).connecting = true := ht ▸ hol
  exact .take h (ht ▸ hh) hn (.inr ho) (h.isBusy (.task i) ho)

lemma Node.Sole.storeHands (h : s.Sole) (ht : s.tasks i = .storeLink link) :
    Hands i link (s.tasks i) (s.links link) .idle .stored := by
  rw [ht,(h.storing i link).1 ht]
  exact .store

lemma Node.Sole.closedHands (h : s.Sole) (ht : s.tasks i = .setClosed link) :
    Hands i link (s.tasks i) (s.links link) .retryClosed .closed := by
  rw [ht,(h.closing i link).1 ht]
  exact .closed

lemma closeHands (h : s.tasks i = .idle ∧ s.links link = .stored) :
    Hands i link (s.tasks i) (s.links link) (.setClosed link) (.closing i) := by
  rw [h.1,h.2]
  exact .close

lemma constructHands (h : s.tasks i = .constructLink ∧ s.links link = .absent) :
    Hands i link (s.tasks i) (s.links link) (.storeLink link) (.constructed i) := by
  rw [h.1,h.2]
  exact .construct

def Phase.plain (phase : Phase) : Bool := !phase.connecting && !phase.holds

lemma plain_iff {phase : Phase} :
    phase.plain = true ↔ phase.connecting = false ∧ phase.holds = false := by
  simp [Phase.plain]

lemma Node.Sole.plain (h : s.Sole) {s' : Node} {phase : Phase}
    (ho : (s.tasks i).plain = true) (hn : phase.plain = true) (hs : s'.state = s.state)
    (hl : s'.links = s.links) (ht : s'.tasks = update s.tasks i phase) :
    s'.Sole := by
  unfold Node.Sole
  rw [hs,hl,ht]
  exact h.goto (plain_iff.1 ho).2 (plain_iff.1 hn).2 (plain_iff.1 hn).1 id

lemma cancel_eq : ∃ timers, s.cancel = { s with timers := timers } := by
  unfold Node.cancel
  split
  · exact ⟨s.timers,rfl⟩
  · exact ⟨_,rfl⟩

lemma next_plain {phase : Phase} (hp : phase.plain = true) (hc : phase ≠ .connect)
    (hl : phase ≠ .setLinked) :
    s.next i phase = s ∨ ((s.next i phase).state = s.state ∧ (s.next i phase).links = s.links ∧
      ∃ p : Phase, p.plain = true ∧ (s.next i phase).tasks = update s.tasks i p) := by
  obtain ⟨timers,hca⟩ := cancel_eq
  cases phase <;> simp only [Node.next]
  case connect => exact (hc rfl).elim
  case setLinked => exact (hl rfl).elim
  case park | closeState | storeLink | setClosed => cases hp
  case idle | recallIdentity | constructLink | assignTimer => exact .inl trivial
  case cancelTimer | wakeCancel =>
    rw [hca]
    exact .inr ⟨rfl,rfl,_,rfl,rfl⟩
  case daemonTimer | startTimer =>
    right
    split
    · exact ⟨rfl,rfl,_,rfl,rfl⟩
    · split <;> exact ⟨rfl,rfl,_,rfl,rfl⟩
  case schedule | checkTimer | delay | wake | wakeState | wakeCheck | reconnect | retryClosed =>
    right
    split_ifs <;> exact ⟨rfl,rfl,_,rfl,rfl⟩
  all_goals exact .inr ⟨rfl,rfl,_,rfl,rfl⟩

lemma next_sole (h : s.Sole) : (s.next i (s.tasks i)).Sole := by
  by_cases hs : (s.tasks i).plain = true ∧ s.tasks i ≠ .connect ∧ s.tasks i ≠ .setLinked
  · obtain ⟨hpl,hc,hl⟩ := hs
    rcases next_plain hpl hc hl with e | ⟨hst,hli,p,hp,ht⟩
    · rwa [e]
    · exact h.plain hpl hp hst hli ht
  cases hph : s.tasks i <;> simp only [Node.next]
  case connect =>
    split_ifs with hf
    · simp only [Bool.and_eq_true,Bool.not_eq_true'] at hf
      exact .take h (hph ▸ rfl) rfl (.inl hf.2) rfl
    · exact .goto h (hph ▸ rfl) rfl rfl id
  case setLinked => exact .goto h (hph ▸ rfl) rfl rfl fun _ => rfl
  case park | closeState => exact .release h (hph ▸ rfl) rfl rfl
  case storeLink link => exact .hand h (h.storeHands hph) fun _ => rfl
  case setClosed link => exact .hand h (h.closedHands hph) nofun
  case recallIdentity | constructLink => exact h
  all_goals
    refine (hs ?_).elim
    rw [hph]
    exact ⟨rfl,nofun,nofun⟩

lemma call_sole (h : s.Sole) {phase : Phase} (hn : phase.plain = true) : (s.call i phase).Sole := by
  unfold Node.call
  split_ifs with hi
  · exact h.plain (hi ▸ rfl) hn rfl rfl rfl
  · exact h

lemma step_sole (h : s.Sole) {l : Label} : (step s l).Sole := by
  cases l with
  | start i => exact call_sole h rfl
  | wake i => exact call_sole h rfl
  | expire i t =>
    simp only [step]
    split_ifs with hf
    · exact h.plain (hf.1 ▸ rfl) rfl rfl rfl rfl
    · exact h
  | onLinked i link =>
    simp only [step]
    split
    · exact call_sole h rfl
    · exact call_sole h rfl
    · exact call_sole h rfl
    · exact h
  | onClosed i link =>
    simp only [step]
    split_ifs with hc
    · exact .hand h (closeHands hc) fun _ => rfl
    · exact h
  | next i => exact next_sole h
  | recalled i found =>
    simp only [step]
    split_ifs with ht hfo
    · exact h.proceed ht rfl rfl rfl
    · exact h.proceed ht rfl rfl rfl
    · exact h
  | construct i link =>
    cases link with
    | none =>
      simp only [step]
      split_ifs with ht
      · exact h.proceed ht rfl rfl rfl
      · exact h
    | some link =>
      simp only [step]
      split_ifs with hn
      · exact .hand h (constructHands hn) fun _ => rfl
      · exact h
  | assign i t =>
    simp only [step]
    split_ifs with hn
    · exact h.plain (hn.1 ▸ rfl) rfl rfl rfl rfl
    · exact h

end Sole

def Phase.committed : Phase → Bool
  | .setRunning | .setReticulum | .connect => true
  | .schedule | .checkTimer | .cancelTimer | .delay | .loadAttempt | .storeAttempt _ => true
  | .assignTimer | .wakeCheck | .wakeCancel | .wakeClear | .reconnect | .retryClosed => true
  | _ => false

def Phase.arming : Phase → Bool
  | .daemonTimer | .startTimer => true
  | _ => false

/-- A thread on its way, an armed timer, or a new one with a thread that arms it. -/
def Node.Pending (s : Node) : Prop :=
  (∃ i, (s.tasks i).committed = true) ∨ (∃ t, s.timers t = .armed) ∨
    ∃ t i, s.timer = some t ∧ s.timers t = .created ∧ (s.tasks i).arming = true

def Phase.early : Phase → Bool
  | .idle | .setRunning | .setReticulum | .connect | .wake | .wakeState => true
  | _ => false

structure Good (s : Node) : Prop where
  owned : busy s.state = true → ∃ o, Owns s.tasks s.links o
  unstarted : s.state = .idle → (∀ i, (s.tasks i).early = true) ∧
    (∀ t, s.timers t = .absent) ∧ ∀ link, s.links link = .absent
  run : s.running = false → s.state = .idle
  ready : s.reticulum = false → s.state = .idle ∧ ∀ i, s.tasks i ≠ .connect
  retried : s.running = true → busy s.state = false → s.Pending

variable {attempt : ℕ}

section Steps

variable {s s' : Node} {i t link : ℕ} {old phase : Phase}

lemma ne_of_phase {tasks : ℕ → Phase} {f : Phase → Bool} {j : ℕ} (ht : tasks i = old)
    (ho : f old = false) (hj : f (tasks j) = true) : j ≠ i := by
  rintro rfl
  rw [ht,ho] at hj
  cases hj

lemma goto_pending (h : phase.committed = true) : (s.goto i phase).Pending :=
  .inl ⟨i,by rw [goto_tasks_self]; exact h⟩

lemma Node.Pending.goto (h : s.Pending) (ht : s.tasks i = old) (ho : old.committed = false)
    (ha : old.arming = false) : (s.goto i phase).Pending := by
  rcases h with ⟨j,hj⟩ | har | ⟨t,j,hti,hc,hj⟩
  · have hne : j ≠ i := ne_of_phase ht ho hj
    exact .inl ⟨j,by rw [goto_tasks_ne hne]; exact hj⟩
  · exact .inr (.inl har)
  · have hne : j ≠ i := ne_of_phase ht ha hj
    exact .inr (.inr ⟨t,j,hti,hc,by rw [goto_tasks_ne hne]; exact hj⟩)

lemma Node.Pending.abandon (h : s.Pending) (hta : s.tasks i = old)
    (ho : old.committed = false) (hu : ∀ t, s.timer = some t → s.timers t ≠ .created) :
    (s.goto i .idle).Pending := by
  rcases h with ⟨j,hj⟩ | ha | ⟨t,j,ht,hc,-⟩
  · have hne : j ≠ i := ne_of_phase hta ho hj
    exact .inl ⟨j,by rw [goto_tasks_ne hne]; exact hj⟩
  · exact .inr (.inl ha)
  · exact (hu t ht hc).elim

lemma Good.flags (h : Good s) (hs : s.state ≠ .idle) : s.running = true ∧ s.reticulum = true := by
  constructor
  · by_contra hr
    exact hs (h.run (by simpa using hr))
  · by_contra hre
    exact hs (h.ready (by simpa using hre)).1

lemma Good.started (h : Good s) (ht : s.tasks i = old) (hl : old.early = false) :
    s.state ≠ .idle := by
  intro hi
  rw [← ht,(h.unstarted hi).1 i] at hl
  cases hl

lemma good_of_started (hs : s.state ≠ .idle) (hru : s.running = true)
    (hre : s.reticulum = true) (ho : busy s.state = true → ∃ o, Owns s.tasks s.links o)
    (hr : busy s.state = false → s.Pending) : Good s where
  owned := ho
  unstarted := fun e => (hs e).elim
  run := by
    intro e
    rw [hru] at e
    cases e
  ready := by
    intro e
    rw [hre] at e
    cases e
  retried := fun _ => hr

lemma owned_goto {tasks : ℕ → Phase} {links : ℕ → LinkStatus} (h : ∃ o, Owns tasks links o)
    (hol : (tasks i).connecting = false) :
    ∃ o, Owns (update tasks i phase) links o := by
  obtain ⟨o,ho⟩ := h
  refine ⟨o,?_⟩
  cases o with
  | task j =>
    have hne : j ≠ i := ne_of_phase rfl hol ho
    rw [Owns,update_of_ne hne]
    exact ho
  | link l => exact ho

lemma Good.early (h : Good s) (ht : s.tasks i = old) (ho : old.connecting = false)
    {running reticulum : Bool} (hru : s.running = true → running = true)
    (hret : s.reticulum = true → reticulum = true) (he : s.state = .idle → phase.early = true)
    (hc : reticulum = false → phase ≠ .connect) (hre : running = true → busy s.state = false →
      ({ s with running := running, reticulum := reticulum }.goto i phase).Pending) :
    Good ({ s with running := running, reticulum := reticulum }.goto i phase) where
  owned := fun hb => owned_goto (h.owned hb) (ht ▸ ho)
  unstarted := by
    intro hi
    refine ⟨fun j => ?_,(h.unstarted hi).2⟩
    rcases eq_or_ne j i with rfl | hne
    · rw [goto_tasks_self]
      exact he hi
    · rw [goto_tasks_ne hne]
      exact (h.unstarted hi).1 j
  run := fun e => h.run (Bool.eq_false_iff.2 fun hr => Bool.eq_false_iff.1 e (hru hr))
  ready := by
    intro e
    obtain ⟨hi,hn⟩ :=
      h.ready (Bool.eq_false_iff.2 fun hr => Bool.eq_false_iff.1 e (hret hr))
    refine ⟨hi,fun j => ?_⟩
    rcases eq_or_ne j i with rfl | hne
    · rw [goto_tasks_self]
      exact hc e
    · rw [goto_tasks_ne hne]
      exact hn j
  retried := hre

variable {timers : ℕ → TimerStatus}

lemma Good.late (h : Good s) (hs : s.state ≠ .idle) (ht : s.tasks i = old)
    (ho : old.connecting = false) {timer : Option ℕ}
    (hr : s.Pending →
      ({ s with timer := timer, attempt := attempt, timers := timers }.goto i phase).Pending) :
    Good ({ s with timer := timer, attempt := attempt, timers := timers }.goto i phase) := by
  obtain ⟨hru,hre⟩ := h.flags hs
  apply good_of_started
  · exact hs
  · exact hru
  · exact hre
  · exact fun hb => owned_goto (h.owned hb) (ht ▸ ho)
  · exact fun hb => hr (h.retried hru hb)

lemma Good.connect (h : Good s) (ht : s.tasks i = .connect) : Good (s.next i .connect) := by
  simp only [Node.next]
  split_ifs with hf
  · simp only [Bool.and_eq_true,Bool.not_eq_true'] at hf
    have hr : s.reticulum = true := by
      by_contra hr
      exact (h.ready (by simpa using hr)).2 i ht
    apply good_of_started
    · exact nofun
    · exact hf.1
    · exact hr
    · exact fun _ => ⟨.task i,by rw [Owns,goto_tasks_self]; rfl⟩
    · exact nofun
  · refine h.early ht rfl id id (fun _ => rfl) nofun ?_
    intro hru hp
    simp [hp,show s.running = true from hru] at hf

lemma Good.proceed (h : Good s) (hex : s.Sole) (ht : s.tasks i = old)
    (hl : old.early = false) (hol : old.connecting = true) (hn : phase.connecting = true) :
    Good (s.goto i phase) := by
  have ho : (s.tasks i).connecting = true := ht ▸ hol
  have hb := hex.isBusy (.task i) ho
  obtain ⟨hr,hre⟩ := h.flags (h.started ht hl)
  apply good_of_started
  · exact h.started ht hl
  · exact hr
  · exact hre
  · exact fun _ => ⟨.task i,by rw [Owns,goto_tasks_self]; exact hn⟩
  · exact fun hp => (Bool.eq_false_iff.1 hp hb).elim

lemma Good.park (h : Good s) (ht : s.tasks i = old) (hl : old.early = false)
    {state : MirrorState} (hs : state ≠ .idle)
    (hp : busy state = false) : Good ({ s with state := state }.goto i .schedule) := by
  obtain ⟨hr,hre⟩ := h.flags (h.started ht hl)
  apply good_of_started
  · exact hs
  · exact hr
  · exact hre
  · exact fun hb => (Bool.eq_false_iff.1 hp hb).elim
  · exact fun _ => goto_pending rfl

lemma Good.hand (h : Good s) (hex : s.Sole) {status : LinkStatus}
    (hand : Hands i link (s.tasks i) (s.links link) phase status) (hl : status.live = true) :
    Good ((s.setLink link status).goto i phase) := by
  obtain ⟨owner,ho,-⟩ := hand.owner
  have hb := hex.isBusy owner ho
  have hs : s.state ≠ .idle := by
    intro e
    rw [e] at hb
    cases hb
  obtain ⟨hr,hre⟩ := h.flags hs
  apply good_of_started
  · exact hs
  · exact hr
  · exact hre
  · exact fun _ => ⟨.link link,by simp [Owns,Node.goto,Node.setLink,hl]⟩
  · exact fun hp => (Bool.eq_false_iff.1 hp hb).elim

lemma Good.setClosed (h : Good s) (ht : s.tasks i = .setClosed link) :
    Good (s.next i (.setClosed link)) := by
  obtain ⟨hr,hre⟩ := h.flags (h.started ht rfl)
  apply good_of_started
  · exact nofun
  · exact hr
  · exact hre
  · exact nofun
  · exact fun _ => goto_pending rfl

lemma Good.setLinked (h : Good s) (ht : s.tasks i = .setLinked)
    (hb : busy s.state = true) : Good (s.next i .setLinked) := by
  obtain ⟨hr,hre⟩ := h.flags (h.started ht rfl)
  apply good_of_started
  · exact nofun
  · exact hr
  · exact hre
  · exact fun _ => owned_goto (h.owned hb) (ht ▸ rfl)
  · exact nofun

lemma Good.onward (h : Good s) (ht : s.tasks i = old) (hl : old.early = false)
    (ho : old.connecting = false) (hc : phase.committed = true) {timer : Option ℕ} :
    Good ({ s with timer := timer, attempt := attempt, timers := timers }.goto i phase) :=
  h.late (h.started ht hl) ht ho fun _ => goto_pending hc

lemma Good.aside (h : Good s) (ht : s.tasks i = old) (hl : old.early = false)
    (ho : old.connecting = false) (hi : old.committed = false) (har : old.arming = false) :
    Good ({ s with attempt := attempt }.goto i phase) := by
  refine h.late (h.started ht hl) ht ho fun hp => ?_
  have ha : { s with attempt := attempt }.Pending := hp
  exact ha.goto ht hi har

lemma Good.assign (h : Good s) (ht : s.tasks i = .assignTimer) :
    Good (({ s with timer := some t }.setTimer t .created).goto i .daemonTimer) := by
  refine h.late (h.started ht rfl) ht rfl fun _ => ?_
  refine .inr (.inr ⟨t,i,rfl,update_self ..,?_⟩)
  rw [goto_tasks_self]
  rfl

lemma Good.abandon (h : Good s) (ht : s.tasks i = old) (hl : old.early = false)
    (ho : old.connecting = false) (hi : old.committed = false)
    (hu : ∀ t, s.timer = some t → s.timers t ≠ .created) : Good (s.goto i .idle) :=
  h.late (h.started ht hl) ht ho fun hp => hp.abandon ht hi hu

lemma Good.daemonTimer (h : Good s) (hta : s.tasks i = .daemonTimer) :
    Good (s.next i .daemonTimer) := by
  have hf := h.abandon hta rfl rfl rfl
  have hst : Good (s.goto i .startTimer) := by
    refine h.late (h.started hta rfl) hta rfl fun hp => ?_
    rcases hp with ⟨j,hj⟩ | ha | ⟨t,j,ht,hc,hj⟩
    · have hne : j ≠ i := ne_of_phase hta rfl hj
      exact .inl ⟨j,by rw [goto_tasks_ne hne]; exact hj⟩
    · exact .inr (.inl ha)
    · -- this thread will start the timer
      exact .inr (.inr ⟨t,i,ht,hc,by rw [goto_tasks_self]; rfl⟩)
  unfold Node.next
  cases ht : s.timer with
  | none => exact hf (by simp [ht])
  | some t =>
    cases hs : s.timers t <;> simp only [hs]
    case created | cancelled => exact hst
    all_goals exact hf (by simp [ht,hs])

lemma Good.startTimer (h : Good s) (ht : s.tasks i = .startTimer) :
    Good (s.next i .startTimer) := by
  have hf := h.abandon ht rfl rfl rfl
  unfold Node.next
  cases hti : s.timer with
  | none => exact hf (by simp [hti])
  | some t =>
    cases hs : s.timers t <;> simp only [hs]
    case created =>
      refine h.late (h.started ht rfl) ht rfl fun _ => ?_
      exact .inr (.inl ⟨t,update_self ..⟩)
    case cancelled =>
      refine h.late (h.started ht rfl) ht rfl fun hp => ?_
      have hd : (s.setTimer t .finished).Pending := by
        rcases hp with hj | ⟨t',ha⟩ | ⟨t',j,hti',hc,hj⟩
        · exact .inl hj
        · have hne : t' ≠ t := by
            rintro rfl
            rw [hs] at ha
            cases ha
          exact .inr (.inl ⟨t',(update_of_ne hne ..).trans ha⟩)
        · obtain rfl := Option.some.inj (hti.symm.trans hti')
          rw [hs] at hc
          cases hc
      refine hd.abandon ht rfl fun t' ht' => ?_
      obtain rfl := Option.some.inj (hti.symm.trans ht')
      simp [Node.setTimer]
    all_goals exact hf (by simp [hti,hs])

lemma next_good (h : Good s) (hex : s.Sole) (hok : Timely s (.next i)) :
    Good (s.next i (s.tasks i)) := by
  obtain ⟨timers,hc⟩ := cancel_eq
  have hr := fun {p} (hp : s.tasks i = p) (hl : p.early = false) =>
    h.flags (h.started hp hl)
  cases hph : s.tasks i with
  | idle | recallIdentity | constructLink | assignTimer => exact h
  | setRunning =>
    exact h.early hph rfl (fun _ => rfl) id (fun _ => rfl) nofun fun _ _ => goto_pending rfl
  | setReticulum =>
    exact h.early hph rfl id (fun _ => rfl) (fun _ => rfl) nofun fun _ _ => goto_pending rfl
  | connect => exact h.connect hph
  | park => exact h.park hph rfl nofun rfl
  | closeState => exact h.park hph rfl nofun rfl
  | storeLink link =>
    have hg : Good { s with link := some link } :=
      ⟨h.owned,h.unstarted,h.run,h.ready,h.retried⟩
    exact hg.hand hex (hex.storeHands hph) rfl
  | schedule =>
    rw [Node.next,if_pos (hr hph rfl).1]
    exact h.onward hph rfl rfl rfl
  | checkTimer =>
    simp only [Node.next]
    split_ifs
    · exact h.onward hph rfl rfl rfl
    · exact h.onward hph rfl rfl rfl
  | cancelTimer =>
    rw [Node.next,hc]
    exact h.onward hph rfl rfl rfl
  | delay =>
    rw [Node.next,if_pos (hok.2 hph)]
    exact h.onward hph rfl rfl rfl
  | loadAttempt => exact h.onward hph rfl rfl rfl
  | storeAttempt attempt => exact h.onward hph rfl rfl rfl
  | daemonTimer => exact h.daemonTimer hph
  | startTimer => exact h.startTimer hph
  | wake =>
    refine h.early hph rfl id id ?_ ?_ fun hru hpa =>
      (h.retried hru hpa).goto hph rfl rfl
    · intro _
      split_ifs <;> rfl
    · intro _
      split_ifs <;> exact nofun
  | wakeState =>
    rw [Node.next]
    split_ifs with hpa
    · have hs : s.state ≠ .idle := by
        rcases hpa with e | e <;> rw [e] <;> exact nofun
      exact h.late hs hph rfl fun _ => goto_pending rfl
    · exact h.early hph rfl id id (fun _ => rfl) nofun
        fun hru hpa => (h.retried hru hpa).goto hph rfl rfl
  | wakeCheck =>
    simp only [Node.next]
    split_ifs
    · exact h.onward hph rfl rfl rfl
    · exact h.onward hph rfl rfl rfl
  | wakeCancel =>
    rw [Node.next,hc]
    exact h.onward hph rfl rfl rfl
  | wakeClear => exact h.onward hph rfl rfl rfl
  | reconnect =>
    obtain ⟨hru,hre⟩ := hr hph rfl
    rw [Node.next,hru,hre]
    exact h.onward hph rfl rfl rfl
  | resetAttempt => exact h.aside hph rfl rfl rfl rfl
  | setLinked => exact h.setLinked hph (hok.1 hph)
  | packetCallback => exact h.aside hph rfl rfl rfl rfl
  | setClosed link => exact h.setClosed hph
  | retryClosed =>
    rw [Node.next,if_pos (hr hph rfl).1]
    exact h.onward hph rfl rfl rfl

lemma Good.call (h : Good s) (he : s.state = .idle → phase.early = true)
    (hc : phase ≠ .connect) : Good (s.call i phase) := by
  unfold Node.call
  split_ifs with hi
  · exact h.early hi rfl id id he (fun _ => hc) fun hr hp => (h.retried hr hp).goto hi rfl rfl
  · exact h

lemma step_good (h : Good s) (hex : s.Sole) {l : Label} (hok : Timely s l) : Good (step s l) := by
  cases l with
  | start i => exact h.call (fun _ => rfl) nofun
  | wake i => exact h.call (fun _ => rfl) nofun
  | expire i t =>
    simp only [step]
    split_ifs with hf
    · have hs : s.state ≠ .idle := by
        intro e
        rw [(h.unstarted e).2.1 t] at hf
        cases hf.2
      exact h.late hs hf.1 rfl fun _ => goto_pending rfl
    · exact h
  | onLinked i link =>
    have hs : s.links link ≠ .absent → Good (s.call i .resetAttempt) := by
      intro hl
      refine h.call (fun e => ?_) nofun
      exact (hl ((h.unstarted e).2.2 link)).elim
    simp only [step]
    split
    next hl => exact hs (by rw [hl]; exact nofun)
    next hl => exact hs (by rw [hl]; exact nofun)
    next hl => exact hs (by rw [hl]; exact nofun)
    · exact h
  | onClosed i link =>
    simp only [step]
    split_ifs with hc
    · exact h.hand hex (closeHands hc) rfl
    · exact h
  | next i => exact next_good h hex hok
  | recalled i found =>
    simp only [step]
    split_ifs with ht hfo
    · exact h.proceed hex ht rfl rfl rfl
    · exact h.proceed hex ht rfl rfl rfl
    · exact h
  | construct i link =>
    cases link with
    | none =>
      simp only [step]
      split_ifs with ht
      · exact h.proceed hex ht rfl rfl rfl
      · exact h
    | some link =>
      simp only [step]
      split_ifs with hn
      · exact h.hand hex (constructHands hn) rfl
      · exact h
  | assign i t =>
    simp only [step]
    split_ifs with hn
    · exact h.assign hn.1
    · exact h

end Steps

lemma fresh_sole : fresh.Sole where
  unique := fun o _ ho => by cases o <;> cases ho
  isBusy := fun o ho => by cases o <;> cases ho
  storing := fun _ _ => iff_of_false nofun nofun
  closing := fun _ _ => iff_of_false nofun nofun

lemma fresh_good : Good fresh where
  owned := nofun
  unstarted := fun _ => ⟨fun _ => rfl,fun _ => rfl,fun _ => rfl⟩
  run := fun _ => rfl
  ready := fun _ => ⟨rfl,fun _ => nofun⟩
  retried := nofun

lemma run_outstanding_unique {ls : List Label} {link link' : ℕ}
    (h : (run step fresh ls).Outstanding link) (h' : (run step fresh ls).Outstanding link') :
    link = link' := by
  have hso : (run step fresh ls).Sole :=
    run_invariant (I := Node.Sole) (fun _ l hs => step_sole hs) fresh_sole ls
  exact hso.outstanding_unique h h'

lemma Good.settled {s : Node} (h : Good s) (hso : s.Sole) (hr : s.running = true)
    (hq : s.Quiet) : s.Settled := by
  have hli : ∀ link, (s.links link).live = true → s.Outstanding link := by
    intro link hl
    unfold Node.Outstanding
    cases hs : s.links link with
    | closing j =>
      have hj := (hso.closing j link).2 hs
      rw [hq j] at hj
      cases hj
    | absent | closed =>
      rw [hs] at hl
      cases hl
    | constructed j => rfl
    | stored => rfl
  cases hb : busy s.state with
  | true =>
    left
    constructor
    · obtain ⟨o,ho⟩ := h.owned hb
      cases o with
      | task i =>
        rw [Owns,hq i] at ho
        cases ho
      | link link =>
        exact ⟨link,hli link ho,fun l hl => hso.outstanding_unique hl (hli link ho)⟩
    · revert hb
      cases s.state <;> simp [busy]
  | false =>
    right
    have ha : ∃ t, s.timers t = .armed := by
      rcases h.retried hr hb with ⟨i,hi⟩ | ha | ⟨t,i,-,-,hi⟩
      · rw [hq i] at hi
        cases hi
      · exact ha
      · rw [hq i] at hi
        cases hi
    refine ⟨?_,?_,ha⟩
    · intro link hl
      have how : Owns s.tasks s.links (.link link) := outstanding_live hl
      exact Bool.eq_false_iff.1 hb (hso.isBusy _ how)
    have hst : s.state ≠ .idle := by
      intro e
      obtain ⟨t,ht⟩ := ha
      rw [(h.unstarted e).2.1 t] at ht
      cases ht
    revert hb hst
    cases s.state <;> simp [busy]

/-- In every run whose steps are in time, a mirror that runs has one link or an armed timer
whenever no step is in progress. -/
theorem mirror_settled {ls : List Label} (hok : Guarded step Timely fresh ls) :
    ((run step fresh ls).running = true → (run step fresh ls).Quiet → (run step fresh ls).Settled) ∧
    ∀ link link', (run step fresh ls).Outstanding link →
      (run step fresh ls).Outstanding link' → link = link' := by
  have hg : (run step fresh ls).Sole ∧ Good (run step fresh ls) := by
    refine hok.invariant (I := fun s => s.Sole ∧ Good s) ?_ ⟨fresh_sole,fresh_good⟩
    intro s l hs hl
    exact ⟨step_sole hs.1,step_good hs.2 hs.1 hl⟩
  exact ⟨hg.2.settled hg.1,fun _ _ h h' => run_outstanding_unique h h'⟩

def connectRun : List Label :=
  [.start 0, .next 0, .next 0, .next 0, .recalled 0 true, .construct 0 (some 0), .next 0]

def lateRun : List Label :=
  connectRun ++ [.onLinked 1 0, .next 1, .onClosed 2 0, .next 2, .next 2, .next 2, .next 2,
    .next 2, .next 2, .next 2, .assign 2 0, .next 2, .next 2, .next 1, .next 1,
    .expire 2 0, .next 2, .next 2]

def Node.Stuck (s : Node) : Prop := s.running = true ∧ s.Quiet ∧ ¬ s.Settled

lemma lateRun_stuck : (run step fresh lateRun).Stuck := by
  have ha : ∀ t, (run step fresh lateRun).timers t ≠ .armed := by
    intro t
    match t with
    | 0 | _ + 1 => exact nofun
  have hn : ∀ link, ¬ (run step fresh lateRun).Outstanding link := by
    intro link
    match link with
    | 0 | _ + 1 => exact nofun
  refine ⟨rfl,?_,?_⟩
  · intro i
    match i with
    | 0 | 1 | 2 | _ + 3 => rfl
  rintro (⟨⟨link,hl,-⟩,-⟩ | ⟨-,-,t,ht⟩)
  · exact hn link hl
  · exact ha t ht

def parked (n : ℕ) : Node where
  running := true
  reticulum := true
  state := .waitingForPath
  timer := some n
  attempt := n + 1
  timers := fun t => if t < n then .finished else if t = n then .armed else .absent

def startRun : List Label :=
  [.start 0, .next 0, .next 0, .next 0, .recalled 0 false, .next 0, .next 0, .next 0, .next 0,
    .next 0, .next 0, .assign 0 0, .next 0, .next 0]

def retryRun (n : ℕ) : List Label :=
  [.expire 0 n, .next 0, .next 0, .recalled 0 false, .next 0, .next 0, .next 0, .next 0, .next 0]

def armRun (n : ℕ) : List Label := [.next 0, .next 0, .assign 0 n, .next 0, .next 0]

lemma startRun_parked : run step fresh startRun = parked 0 := by
  have hta : (run step fresh startRun).tasks = (parked 0).tasks := by
    funext i
    match i with
    | 0 | _ + 1 => rfl
  have ht : (run step fresh startRun).timers = (parked 0).timers := by
    funext t
    match t with
    | 0 | _ + 1 => rfl
  exact Node.mk.injEq .. ▸ ⟨rfl,rfl,rfl,rfl,rfl,rfl,rfl,ht,hta⟩

lemma retryRun_delay {n : ℕ} : run step (parked n) (retryRun n) =
      { parked n with
        timers := fun t => if t ≤ n then .finished else .absent
        tasks := update (fun _ => .idle) 0
          (if n + 1 < overflowAttempt then .loadAttempt else .idle) } := by
  have ht : update (parked n).timers n .finished =
      fun t => if t ≤ n then .finished else .absent := by
    funext t
    rcases lt_trichotomy t n with h | rfl | h
    · simp [parked,h,h.ne,h.le]
    · simp
    · simp [parked,h.ne',h.not_gt,h.not_ge]
  simpa [retryRun,step,Node.next,Node.goto,Node.setTimer,Node.cancel,parked,busy,
    TimerStatus.cancel] using ht

lemma retry_parked {n : ℕ} (hn : n + 1 < overflowAttempt) :
    run step (parked n) (retryRun n ++ armRun (n + 1)) = parked (n + 1) := by
  have ht : update (fun t => if t ≤ n then TimerStatus.finished else .absent) (n + 1)
      .armed = (parked (n + 1)).timers := by
    funext t
    rcases lt_trichotomy t (n + 1) with h | rfl | h
    · simp [parked,update_of_ne h.ne,if_pos h,if_pos (Nat.le_of_lt_succ h)]
    · simp [parked]
    · simp only [parked,update_of_ne h.ne',if_neg h.not_gt,if_neg h.ne',
        if_neg (Nat.lt_of_succ_lt h).not_ge]
  rw [run_append,retryRun_delay,if_pos hn]
  simpa [armRun,step,Node.next,Node.goto,Node.setTimer,parked] using ht

def retries : ℕ → List Label
  | 0 => startRun
  | n + 1 => retries n ++ (retryRun n ++ armRun (n + 1))

lemma retries_parked {n : ℕ} (hn : n < overflowAttempt) :
    run step fresh (retries n) = parked n := by
  induction n with
  | zero => exact startRun_parked
  | succ n ih => rw [retries,run_append,ih (Nat.lt_of_succ_lt hn),retry_parked hn]

def overflowRun : List Label := retries 1023 ++ retryRun 1023

lemma overflowRun_stuck : (run step fresh overflowRun).Stuck := by
  have hr : run step fresh overflowRun = run step (parked 1023) (retryRun 1023) := by
    rw [overflowRun,run_append,retries_parked (by decide)]
  rw [hr,retryRun_delay,if_neg (by decide)]
  refine ⟨rfl,?_,?_⟩
  · intro i
    simp [update_apply]
  rintro (⟨-,hb⟩ | ⟨-,-,t,ht⟩)
  · rcases hb with e | e <;> cases e
  · by_cases h : t ≤ 1023 <;> simp [h] at ht

theorem mirror_stuck : (run step fresh lateRun).Stuck ∧ (run step fresh overflowRun).Stuck :=
  ⟨lateRun_stuck,overflowRun_stuck⟩

/-! The callback in time, the death of the link and a wake before the timer. -/

def timelyRun : List Label :=
  connectRun ++ [.onLinked 1 0, .next 1, .next 1, .next 1, .onClosed 2 0, .next 2, .next 2, .next 2,
    .next 2, .next 2, .next 2, .next 2, .assign 2 0, .next 2, .next 2,
    .wake 1, .next 1, .next 1, .next 1, .next 1, .next 1, .next 1, .recalled 1 true,
    .construct 1 (some 1), .next 1]

theorem mirror_settled_after_wake :
    let s := run step fresh timelyRun
    s.running = true ∧ s.Quiet ∧ s.link = some 1 ∧ s.Settled := by
  have hq : (run step fresh timelyRun).Quiet := by
    intro i
    match i with
    | 0 | 1 | 2 | _ + 3 => rfl
  exact ⟨rfl,hq,rfl,(mirror_settled (by decide +kernel)).1 rfl hq⟩

end Hokora.MirrorConnection
