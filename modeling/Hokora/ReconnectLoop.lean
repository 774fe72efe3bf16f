import Hokora.TransitionRuns
import Mathlib.Logic.Function.Basic
import Mathlib.Tactic.SplitIfs

/-!
# Automatic reconnect of the client

The scheduler, its loop threads and the callbacks of the links, interleaved at each access of what
they share. Waits are not timed, and a connect makes a link or makes none: it then waits for a path
or has raised. Which channels wait for a path is left open, so a retry may come for any channel.
-/
namespace Hokora.ReconnectLoop
open TransitionRuns
open List (cons_ne_nil replicate)

inductive Task where
  | reset
  | closing
  | deciding
  | triggering
  | checking
  | starting
  | launching
  | startThread (loop : ℕ)
  | done
  deriving DecidableEq

inductive LoopPhase where
  | top
  | checkTargets
  | checkActive
  | waiting
  | attempting (rest : List String)
  | exiting
  | dead
  deriving DecidableEq

structure Client where
  targets : List String := []
  userDisconnected : Bool := false
  reconnectStop : Bool := false
  reconnectAttempt : ℕ := 0
  reconnectThread : Option ℕ := none
  loops : ℕ → LoopPhase := fun _ => .dead
  created : ℕ := 0
  tasks : List Task := []
  active : List String := []
  pending : List String := []
  attempts : ℕ := 0

inductive Event where
  | connect (channelId : String) (opened : Bool)
  | retry (channelId : String) (opened : Bool)
  | disconnect (channelId : String)
  | disconnectAll
  | established (channelId : String)
  | closed (channelId : String)
  | task (i : ℕ)
  | loop (i : ℕ) (opened : Bool)

namespace Client
variable (s : Client)

def without (channels : List String) (channelId : String) : List String :=
  channels.filter fun c => c ≠ channelId

def openChannel (channelId : String) (opened : Bool) : Client :=
  if opened then
    { s with
      pending := channelId :: without s.pending channelId
      active := without s.active channelId }
  else s

def call (t : Task) : Client := { s with tasks := s.tasks ++ [t] }

def goto (i : ℕ) (t : Task) : Client := { s with tasks := s.tasks.set i t }

def moveTo (i : ℕ) (p : LoopPhase) : Client := { s with loops := Function.update s.loops i p }

def dropLink (channelId : String) : Client :=
  { s with
    pending := without s.pending channelId
    active := without s.active channelId }.call .closing

def addTarget (channelId : String) : Client :=
  { s with targets := if channelId ∈ s.targets then s.targets else s.targets ++ [channelId] }

def connectChannel (channelId : String) (opened : Bool) : Client :=
  ({ s with userDisconnected := false }.addTarget channelId).openChannel channelId opened

def disconnectChannel (channelId : String) : Client :=
  let rest := without s.targets channelId
  let s' := { s with
    targets := rest
    reconnectStop := if rest = [] then true else s.reconnectStop }
  if channelId ∈ s.pending ∨ channelId ∈ s.active then s'.dropLink channelId else s'

def disconnectAll : Client :=
  let s' := { s with
    active := []
    pending := []
    targets := []
    userDisconnected := true
    reconnectStop := true }
  if s.active = [] ∧ s.pending = [] then s' else s'.call .closing

def alive : Bool := s.reconnectThread.any fun t => s.loops t ≠ .dead

def taskStep (i : ℕ) : Task → Client
  | .reset => { s with reconnectAttempt := 0, reconnectStop := true }.goto i .done
  | .closing => s.goto i (if s.active = [] then .deciding else .done)
  | .deciding =>
    s.goto i (if s.targets ≠ [] ∧ s.userDisconnected = false then .triggering else .done)
  | .triggering =>
    s.goto i (if s.targets = [] ∨ s.userDisconnected = true then .done else .checking)
  | .checking => s.goto i (if s.alive then .done else .starting)
  | .starting => { s with reconnectStop := false, reconnectAttempt := 0 }.goto i .launching
  | .launching =>
    { s with reconnectThread := some s.created, created := s.created + 1 }.goto i
      (.startThread s.created)
  | .startThread t => (s.moveTo t .top).goto i .done
  | .done => s

def loopStep (i : ℕ) (opened : Bool) : LoopPhase → Client
  | .top => s.moveTo i (if s.reconnectStop then .exiting else .checkTargets)
  | .checkTargets =>
    s.moveTo i (if s.userDisconnected = true ∨ s.targets = [] then .exiting else .checkActive)
  | .checkActive =>
    if s.active = [] then { s with reconnectAttempt := s.reconnectAttempt + 1 }.moveTo i .waiting
    else { s with reconnectAttempt := 0 }.moveTo i .exiting
  | .waiting => s.moveTo i (if s.reconnectStop then .exiting else .attempting s.targets)
  | .attempting [] => s.moveTo i .top
  | .attempting (c :: rest) =>
    if s.reconnectStop = true ∨ s.userDisconnected = true then s.moveTo i .exiting
    else if c ∈ s.active then s.moveTo i (.attempting rest)
    else { s.openChannel c opened with attempts := s.attempts + 1 }.moveTo i (.attempting rest)
  | .exiting => s.moveTo i .dead
  | .dead => s

end Client

def step (s : Client) : Event → Client
  | .connect channelId opened => s.connectChannel channelId opened
  | .retry channelId opened => s.openChannel channelId opened
  | .disconnect channelId => s.disconnectChannel channelId
  | .disconnectAll => s.disconnectAll
  | .established channelId =>
    (if channelId ∈ s.pending then
      { s with
        pending := Client.without s.pending channelId
        active := channelId :: Client.without s.active channelId }
    else s).call .reset
  | .closed channelId => s.dropLink channelId
  | .task i => (s.tasks[i]?.map (s.taskStep i)).getD s
  | .loop i opened => s.loopStep i opened (s.loops i)

def Linked (s : Client) : Prop := s.active ≠ [] ∨ s.pending ≠ []

structure Idle (s : Client) : Prop where
  connected : s.userDisconnected = false
  targets : s.targets ≠ []
  unlinked : ¬ Linked s
  finished : ∀ t ∈ s.tasks, t = .done

/-- The loop calls `connect_channel` within `n` steps of its own. -/
def AttemptsIn (s : Client) (i n : ℕ) : Prop :=
  ∀ opened, s.attempts < (run step s (replicate n (.loop i opened))).attempts

/-- A loop is running that will call `connect_channel` again. -/
def Awake (s : Client) : Prop := ∃ i n, AttemptsIn s i n

/-- A callback looks for the thread only when that has ended or goes on, and the callback of an
established link is not late: a link is there when it sets the event. -/
def InTime (s : Client) : Task → Prop
  | .checking => ∀ t ∈ s.reconnectThread, s.loops t ≠ .dead →
      s.reconnectStop = false ∧ s.loops t ≠ .exiting
  | .reset => Linked s
  | _ => True

/-- The callbacks come in time. A connect by the user opens a link, unless a link is there or other
targets are kept already, for which a link, a callback or a loop was there before. -/
def Timely (s : Client) : Event → Prop
  | .connect _ opened =>
    opened = true ∨ (s.userDisconnected = false ∧ s.targets ≠ []) ∨ Linked s
  | .task i => ∀ t ∈ s.tasks[i]?, InTime s t
  | _ => True

instance (s : Client) : Decidable (Linked s) := inferInstanceAs (Decidable (_ ∨ _))

instance (s : Client) : DecidablePred (InTime s)
  | .checking => inferInstanceAs (Decidable (∀ t ∈ s.reconnectThread, _ → _ ∧ _))
  | .reset => inferInstanceAs (Decidable (Linked s))
  | .closing | .deciding | .triggering | .starting | .launching | .startThread _ | .done =>
    .isTrue trivial

instance (s : Client) : DecidablePred (Timely s)
  | .connect _ opened => inferInstanceAs (Decidable (opened = true ∨ (_ ∧ _) ∨ Linked s))
  | .task i => inferInstanceAs (Decidable (∀ t ∈ s.tasks[i]?, InTime s t))
  | .retry _ _ | .disconnect _ | .disconnectAll | .established _ | .closed _ | .loop _ _ =>
    .isTrue trivial

/-- A loop that will go on. -/
def Runs (s : Client) : Prop :=
  s.reconnectStop = false ∧ ∃ i, s.loops i ≠ .exiting ∧ s.loops i ≠ .dead

/-- A callback that is going to start a loop or has yet to look. -/
def Promising (stop : Bool) : Task → Prop
  | .closing | .deciding | .triggering | .checking | .starting => True
  | .launching | .startThread _ => stop = false
  | .reset | .done => False

def Pursued (s : Client) : Prop :=
  ∃ (i : ℕ) (t : Task), s.tasks[i]? = some t ∧ Promising s.reconnectStop t

/-- There is a connection, a callback sees to it, or a loop runs. -/
def Secured (s : Client) : Prop := Linked s ∨ Pursued s ∨ Runs s

def Inv (s : Client) : Prop := s.userDisconnected = false → s.targets ≠ [] → Secured s

section Steps
variable {s : Client} {i : ℕ} {t t' : Task} {p : LoopPhase}

lemma Pursued.goto (hi : s.tasks[i]? = some t) (h : Promising s.reconnectStop t') :
    Pursued (s.goto i t') := by
  obtain ⟨hlt,-⟩ := List.getElem?_eq_some_iff.mp hi
  exact ⟨i,t',List.getElem?_set_self hlt,h⟩

lemma Pursued.call (s : Client) (h : Promising s.reconnectStop t) : Pursued (s.call t) :=
  ⟨s.tasks.length,t,List.getElem?_concat_length,h⟩

lemma Secured.goto (h : Secured s) (hi : s.tasks[i]? = some t)
    (ht : ¬ Promising s.reconnectStop t) (t' : Task) : Secured (s.goto i t') := by
  rcases h with h | ⟨j,u,hj,hu⟩ | h
  · exact .inl h
  · have hne : i ≠ j := by
      rintro rfl
      cases hi.symm.trans hj
      exact ht hu
    exact .inr (.inl ⟨j,u,(List.getElem?_set_ne hne).trans hj,hu⟩)
  · exact .inr (.inr h)

lemma Secured.call (h : Secured s) (t : Task) : Secured (s.call t) := by
  rcases h with h | ⟨j,u,hj,hu⟩ | h
  · exact .inl h
  · obtain ⟨hlt,-⟩ := List.getElem?_eq_some_iff.mp hj
    exact .inr (.inl ⟨j,u,(List.getElem?_append_left hlt).trans hj,hu⟩)
  · exact .inr (.inr h)

lemma Secured.moveTo (h : Secured s) (hp : s.reconnectStop = true ∨ s.loops i = .exiting ∨
    p ≠ .exiting ∧ p ≠ .dead) : Secured (s.moveTo i p) := by
  rcases h with h | h | ⟨hs,j,hj⟩
  · exact .inl h
  · exact .inr (.inl h)
  refine .inr (.inr ⟨hs,?_⟩)
  by_cases hji : j = i
  · subst hji
    rcases hp with hp | hp | hp
    · rw [hs] at hp
      cases hp
    · exact absurd hp hj.1
    · exact ⟨j,by simpa only [Client.moveTo,Function.update_self] using hp⟩
  · exact ⟨j,by simpa only [Client.moveTo,Function.update_of_ne hji] using hj⟩

lemma openChannel_secured (h : Secured s) {c : String} {opened : Bool} :
    Secured (s.openChannel c opened) := by
  cases opened with
  | true => exact .inl (.inr (cons_ne_nil _ _))
  | false => exact h

lemma openChannel_inv (h : Inv s) {c : String} {opened : Bool} : Inv (s.openChannel c opened) := by
  intro hu ht
  refine openChannel_secured (h ?_ ?_)
  · cases opened <;> exact hu
  · cases opened <;> exact ht

lemma taskStep_inv (h : Inv s) (hi : s.tasks[i]? = some t) (hok : InTime s t) :
    Inv (s.taskStep i t) := by
  intro hu ht
  have hw : s.targets ≠ [] ∧ s.userDisconnected = false := by
    cases t <;> exact ⟨ht,hu⟩
  have hs := h hw.2 hw.1
  cases t with
  | reset => exact .inl hok
  | closing =>
    by_cases ha : s.active = []
    · rw [Client.taskStep,if_pos ha]
      exact .inr (.inl (Pursued.goto hi trivial))
    · exact .inl (.inl ha)
  | deciding =>
    rw [Client.taskStep,if_pos hw]
    exact .inr (.inl (Pursued.goto hi trivial))
  | triggering =>
    rw [Client.taskStep,if_neg (by simp [hw])]
    exact .inr (.inl (Pursued.goto hi trivial))
  | checking =>
    rw [Client.taskStep]
    cases hal : s.alive with
    | false => exact .inr (.inl (Pursued.goto hi trivial))
    | true =>
      -- the thread that was found goes on
      obtain ⟨k,hk,hd⟩ := (Option.any_eq_true ..).mp hal
      obtain ⟨hst,he⟩ := hok k hk (of_decide_eq_true hd)
      exact .inr (.inr ⟨hst,k,he,of_decide_eq_true hd⟩)
  | starting => exact .inr (.inl (Pursued.goto hi rfl))
  | launching =>
    by_cases hst : s.reconnectStop = false
    · exact .inr (.inl (Pursued.goto hi hst))
    · exact .goto (s := { s with
        reconnectThread := some s.created, created := s.created + 1 }) hs hi hst _
  | startThread k =>
    by_cases hst : s.reconnectStop = false
    · refine .inr (.inr ⟨hst,k,?_⟩)
      simp only [Client.taskStep,Client.goto,Client.moveTo,Function.update_self]
      exact ⟨nofun,nofun⟩
    · have hm : Secured (s.moveTo k .top) := hs.moveTo (.inr (.inr ⟨nofun,nofun⟩))
      exact hm.goto hi hst _
  | done => exact hs

lemma loopStep_inv (h : Inv s) (hi : s.loops i = p) {opened : Bool} :
    Inv (s.loopStep i opened p) := by
  intro hu ht
  cases p with
  | top =>
    rw [Client.loopStep]
    split_ifs with hs
    · exact (h hu ht).moveTo (.inl hs)
    · exact (h hu ht).moveTo (.inr (.inr ⟨nofun,nofun⟩))
  | checkTargets =>
    rw [Client.loopStep]
    split_ifs with hn
    · rcases hn with hu' | ht'
      · cases hu'.symm.trans hu
      · exact absurd ht' ht
    · exact (h hu ht).moveTo (.inr (.inr ⟨nofun,nofun⟩))
  | checkActive =>
    rw [Client.loopStep] at hu ht ⊢
    split_ifs at hu ht ⊢ with ha
    · exact .moveTo (h hu ht) (.inr (.inr ⟨nofun,nofun⟩))
    · exact .inl (.inl ha)
  | waiting =>
    rw [Client.loopStep]
    split_ifs with hs
    · exact (h hu ht).moveTo (.inl hs)
    · exact (h hu ht).moveTo (.inr (.inr ⟨nofun,nofun⟩))
  | attempting rest =>
    cases rest with
    | nil => exact (h hu ht).moveTo (.inr (.inr ⟨nofun,nofun⟩))
    | cons c rest =>
      rw [Client.loopStep] at hu ht ⊢
      split_ifs at hu ht ⊢ with hl ha
      · rcases hl with hs | hu'
        · exact (h hu ht).moveTo (.inl hs)
        · cases hu'.symm.trans hu
      · exact (h hu ht).moveTo (.inr (.inr ⟨nofun,nofun⟩))
      · exact .moveTo (openChannel_inv h hu ht) (.inr (.inr ⟨nofun,nofun⟩))
  | exiting => exact (h hu ht).moveTo (.inr (.inl hi))
  | dead => exact h hu ht

lemma dropLink_inv (s : Client) (c : String) : Inv (s.dropLink c) :=
  fun _ _ => .inr (.inl (Pursued.call _ trivial))

lemma disconnectChannel_inv (h : Inv s) {c : String} : Inv (s.disconnectChannel c) := by
  unfold Client.disconnectChannel
  by_cases hl : c ∈ s.pending ∨ c ∈ s.active
  · simp only [if_pos hl]
    exact dropLink_inv _ c
  simp only [if_neg hl]
  intro hu ht
  have hr : Client.without s.targets c ≠ [] := ht
  have hta : s.targets ≠ [] := by
    intro hn
    rw [hn] at hr
    exact hr rfl
  simp only [if_neg hr]
  exact h hu hta

lemma step_inv (s : Client) (e : Event) (h : Inv s) (hok : Timely s e) : Inv (step s e) := by
  cases e with
  | connect c opened =>
    intro _ _
    cases opened with
    | true => exact .inl (.inr (cons_ne_nil _ _))
    | false =>
      rcases hok with hop | ⟨hu,ht⟩ | hl
      · cases hop
      · exact h hu ht
      · exact .inl hl
  | retry c opened => exact openChannel_inv h
  | disconnect c => exact disconnectChannel_inv h
  | disconnectAll =>
    simp only [step,Client.disconnectAll]
    split_ifs <;> exact fun hu => by cases hu
  | established c =>
    simp only [step]
    split_ifs
    · exact fun _ _ => .inl (.inl (cons_ne_nil _ _))
    · exact fun hu ht => (h hu ht).call .reset
  | closed c => exact dropLink_inv s c
  | task i =>
    cases hi : s.tasks[i]? with
    | none =>
      rw [step,hi]
      exact h
    | some t =>
      rw [step,hi]
      exact taskStep_inv h hi (hok t hi)
  | loop i opened => exact loopStep_inv h rfl

end Steps

section Attempts
variable {s : Client} {i : ℕ}

lemma AttemptsIn.succ {s' : Client} {n : ℕ} (h : AttemptsIn s' i n)
    (hst : ∀ opened, s.loopStep i opened (s.loops i) = s')
    (ha : s'.attempts = s.attempts) : AttemptsIn s i (n + 1) := by
  intro opened
  rw [List.replicate_succ,run_cons,← ha]
  have hs : step s (.loop i opened) = s' := hst opened
  rw [hs]
  exact h opened

lemma moveTo_idle (h : Idle s) {p : LoopPhase} : Idle (s.moveTo i p) :=
  ⟨h.connected,h.targets,h.unlinked,h.finished⟩

lemma moveTo_phase (s : Client) (p : LoopPhase) : (s.moveTo i p).loops i = p := by
  simp [Client.moveTo]

lemma Idle.inactive (h : Idle s) : s.active = [] := by
  by_contra hne
  exact h.unlinked (.inl hne)

lemma attempting_attempts (h : Idle s) (hs : s.reconnectStop = false) {c : String}
    {rest : List String} (hi : s.loops i = .attempting (c :: rest)) : AttemptsIn s i 1 := by
  intro opened
  have hc : c ∉ s.active := by
    rw [h.inactive]
    exact List.not_mem_nil
  have hgo : ¬ (s.reconnectStop = true ∨ s.userDisconnected = true) := by
    rw [hs,h.connected]
    simp
  have hst : step s (.loop i opened) = { s.openChannel c opened with
      attempts := s.attempts + 1 }.moveTo i (.attempting rest) := by
    simp [step,Client.loopStep,hi,if_neg hgo,if_neg hc]
  rw [List.replicate_one,run_cons,hst]
  exact Nat.lt_succ_self _

lemma waiting_attempts (h : Idle s) (hs : s.reconnectStop = false)
    (hi : s.loops i = .waiting) : AttemptsIn s i 2 := by
  obtain ⟨c,rest,ht⟩ := List.exists_cons_of_ne_nil h.targets
  have hp := moveTo_phase (i := i) s (.attempting (c :: rest))
  apply (attempting_attempts (moveTo_idle h) hs hp).succ
  · intro opened
    rw [hi,Client.loopStep,hs,ht]
    rfl
  · rfl

lemma checkActive_attempts (h : Idle s) (hs : s.reconnectStop = false)
    (hi : s.loops i = .checkActive) : AttemptsIn s i 3 := by
  have hid : Idle { s with reconnectAttempt := s.reconnectAttempt + 1 } :=
    ⟨h.connected,h.targets,h.unlinked,h.finished⟩
  apply (waiting_attempts (moveTo_idle hid) hs (moveTo_phase _ .waiting)).succ
  · intro opened
    rw [hi,Client.loopStep,if_pos h.inactive]
  · rfl

lemma checkTargets_attempts (h : Idle s) (hs : s.reconnectStop = false)
    (hi : s.loops i = .checkTargets) : AttemptsIn s i 4 := by
  apply (checkActive_attempts (moveTo_idle h) hs (moveTo_phase s .checkActive)).succ
  · intro opened
    rw [hi,Client.loopStep,if_neg (by simp [h.connected,h.targets])]
  · rfl

lemma top_attempts (h : Idle s) (hs : s.reconnectStop = false) (hi : s.loops i = .top) :
    AttemptsIn s i 5 := by
  apply (checkTargets_attempts (moveTo_idle h) hs (moveTo_phase s .checkTargets)).succ
  · intro opened
    rw [hi,Client.loopStep,hs]
    rfl
  · rfl

lemma Runs.awake (h : Idle s) (hr : Runs s) : Awake s := by
  obtain ⟨hs,i,he,hd⟩ := hr
  cases hi : s.loops i with
  | top => exact ⟨i,5,top_attempts h hs hi⟩
  | checkTargets => exact ⟨i,4,checkTargets_attempts h hs hi⟩
  | checkActive => exact ⟨i,3,checkActive_attempts h hs hi⟩
  | waiting => exact ⟨i,2,waiting_attempts h hs hi⟩
  | attempting rest =>
    cases rest with
    | nil =>
      have ht := top_attempts (moveTo_idle h) hs (moveTo_phase (i := i) s .top)
      refine ⟨i,6,ht.succ (fun opened => ?_) rfl⟩
      rw [hi,Client.loopStep]
    | cons c rest => exact ⟨i,1,attempting_attempts h hs hi⟩
  | exiting => exact absurd hi he
  | dead => exact absurd hi hd

end Attempts

def startLoop (i : ℕ) : List Event := replicate 7 (.task i)

def retryEvents : List Event :=
  [.connect "a" true, .closed "a"] ++ startLoop 0 ++ replicate 5 (.loop 0 true)

def secondLoss : List Event :=
  retryEvents ++ [.established "a", .task 1] ++ replicate 3 (.loop 0 true) ++
    [.closed "a"] ++ startLoop 2

lemma not_awake_of_dead {s : Client} (h : ∀ i, s.loops i = .dead) : ¬ Awake s := by
  rintro ⟨i,n,ha⟩
  have hst : step s (.loop i false) = s := by
    rw [step,h i,Client.loopStep]
  have hs : run step s (replicate n (.loop i false)) = s := by
    clear ha
    induction n with
    | zero => rfl
    | succ n ih => rw [List.replicate_succ,run_cons,hst,ih]
  have hlt := ha false
  rw [hs] at hlt
  exact Nat.lt_irrefl _ hlt

def quickLoss : List Event :=
  retryEvents ++ replicate 4 (.loop 0 true) ++ [.established "a", .task 1, .closed "a"] ++
    replicate 4 (.task 2) ++ replicate 2 (.loop 0 true)

end Hokora.ReconnectLoop
