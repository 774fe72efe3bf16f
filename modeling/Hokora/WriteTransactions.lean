import Mathlib.Order.Basic
import Hokora.TransitionRuns

/-!
# Transactions with one writer at a time

Programs of reads and writes over any state. Readers see what is committed.
-/
namespace Hokora.WriteTransactions
open TransitionRuns

variable {S W R E A B C G : Type}

/-- A transaction between its first statement and its commit. -/
inductive Prog (S W R E A : Type) where
  | done (a : A)
  | fail (e : E)
  | read (k : S → Prog S W R E A)
  | write (w : W) (k : R → Prog S W R E A)

variable {f : A → Prog S W R E B} {Q : S → G → A → Prop}

namespace Prog

def bind : Prog S W R E A → (A → Prog S W R E B) → Prog S W R E B
  | done a, f => f a
  | fail e, _ => fail e
  | read k, f => read fun s => (k s).bind f
  | write w k, f => write w fun r => (k r).bind f

instance : Monad (Prog S W R E) where
  pure := done
  bind := bind

def query (q : S → A) : Prog S W R E A := read fun s => done (q s)

def execute (w : W) : Prog S W R E R := write w done

def lift : Except E A → Prog S W R E A
  | .ok a => done a
  | .error e => fail e

def check (q : S → Except E A) : Prog S W R E A := read fun s => lift (q s)

@[simp] lemma pure_eq (a : A) : (pure a : Prog S W R E A) = done a := rfl

@[simp] lemma done_bind {a : A} : done a >>= f = f a := rfl

@[simp] lemma read_bind {k : S → Prog S W R E A} : read k >>= f = read fun s => k s >>= f := rfl

@[simp] lemma write_bind {w : W} {k : R → Prog S W R E A} :
    write w k >>= f = write w fun r => k r >>= f := rfl

lemma bind_bind (p : Prog S W R E A) (f : A → Prog S W R E B) {D : Type}
    (h : B → Prog S W R E D) : (p >>= f) >>= h = p >>= fun a => f a >>= h := by
  induction p with
  | done a => rfl
  | fail e => rfl
  | read k ih =>
    simp only [read_bind]
    congr 1
    funext s
    exact ih s
  | write w k ih =>
    simp only [write_bind]
    congr 1
    funext r
    exact ih r

variable (perform : W → S → Except E (R × S))

def exec : Prog S W R E A → S → Except E (A × S)
  | done a, s => .ok (a, s)
  | fail e, _ => .error e
  | read k, s => (k s).exec s
  | write w k, s =>
    match perform w s with
    | .error e => .error e
    | .ok (r, t) => (k r).exec t

lemma exec_bind (p : Prog S W R E A) (f : A → Prog S W R E B) (s : S) :
    (p >>= f).exec perform s = p.exec perform s >>= fun x => (f x.1).exec perform x.2 := by
  induction p generalizing s with
  | done a => rfl
  | fail e => rfl
  | read k ih => exact ih s s
  | write w k ih =>
    simp only [write_bind,exec]
    cases perform w s with
    | error e => rfl
    | ok x => exact ih x.1 x.2

@[simp] lemma exec_execute (w : W) (s : S) :
    (execute w : Prog S W R E R).exec perform s = perform w s := by
  simp only [execute,exec]
  cases perform w s <;> rfl

@[simp] lemma exec_lift {x : Except E A} {s : S} :
    (lift x : Prog S W R E A).exec perform s = x.map fun a => (a, s) := by
  cases x <;> rfl

@[simp] lemma exec_check {q : S → Except E A} {s : S} :
    (check q : Prog S W R E A).exec perform s = (q s).map fun a => (a, s) :=
  exec_lift perform

section Rules
variable [Preorder S] (J : G → S → Prop)

/-- From a store above `w` and with the ghost value `g`, every statement keeps the
invariant and moves upwards, and `Q` holds at the end. -/
def Safe (Q : S → G → A → Prop) : S → G → Prog S W R E A → Prop
  | w, g, done a => Q w g a
  | _, _, fail _ => True
  | w, g, read k => ∀ s, w ≤ s → J g s → Safe Q s g (k s)
  | w, g, write op k => ∀ s r t, w ≤ s → J g s → perform op s = .ok (r, t) →
      ∃ g', J g' t ∧ s ≤ t ∧ Safe Q t g' (k r)

variable {perform J} {g : G} {p : Prog S W R E A} {w : S}

lemma Safe.bind {Q : S → G → B → Prop}
    (h : p.Safe perform J (fun w g a => (f a).Safe perform J Q w g) w g) :
    (p >>= f).Safe perform J Q w g := by
  induction p generalizing w g with
  | done a => exact h
  | fail e => trivial
  | read k ih =>
    intro s hle hj
    exact ih s (h s hle hj)
  | write op k ih =>
    intro s r t hle hj hp
    obtain ⟨g',hj',hup,hr⟩ := h s r t hle hj hp
    exact ⟨g',hj',hup,ih r hr⟩

lemma Safe.lift {x : Except E A} (h : ∀ a, x = .ok a → Q w g a) :
    (Prog.lift x).Safe perform J Q w g := by
  cases x with
  | ok a => exact h a rfl
  | error e => trivial

lemma Safe.query {q : S → A} (h : ∀ s, w ≤ s → J g s → Q s g (q s)) :
    (Prog.query q).Safe perform J Q w g := h

lemma Safe.check {q : S → Except E A} (h : ∀ s a, w ≤ s → J g s → q s = .ok a → Q s g a) :
    (Prog.check q).Safe perform J Q w g :=
  fun s hle hj => Safe.lift fun a => h s a hle hj

lemma Safe.execute {Q : S → G → R → Prop} {op : W}
    (h : ∀ s r t, w ≤ s → J g s → perform op s = .ok (r, t) →
      ∃ g', J g' t ∧ s ≤ t ∧ Q t g' r) : (Prog.execute op).Safe perform J Q w g := h

lemma Safe.exec {s t : S} {a : A} (h : p.Safe perform J Q w g) (hle : w ≤ s) (hj : J g s)
    (he : p.exec perform s = .ok (a, t)) : s ≤ t := by
  induction p generalizing w s g with
  | done b =>
    cases he
    exact le_refl _
  | fail e => cases he
  | read k ih => exact ih s (h s hle hj) (le_refl s) hj he
  | write op k ih =>
    simp only [Prog.exec] at he
    cases hp : perform op s with
    | error e =>
      rw [hp] at he
      cases he
    | ok x =>
      rw [hp] at he
      obtain ⟨g',hj',hs,hr⟩ := h s x.1 x.2 hle hj hp
      exact hs.trans (ih x.1 hr (le_refl _) hj' he)

end Rules

end Prog

structure Writer (S W R E A : Type) where
  prog : Prog S W R E A
  working : S
  trace : List (W × R) := []

structure System (S W R E A : Type) where
  committed : S
  readers : List (Prog S W R E A) := []
  writer : Option (Writer S W R E A) := none
  log : List (List (W × R)) := []

inductive Event (C : Type) where
  | start (call : C)
  | advance (i : ℕ)
  | abandon (i : ℕ)
  | proceed
  | rollback

variable {wr : Writer S W R E A}

section System
variable (perform : W → S → Except E (R × S)) (program : C → Prog S W R E A)

def readerStep (s : System S W R E A) (i : ℕ) : Prog S W R E A → System S W R E A
  | .read k => { s with readers := s.readers.set i (k s.committed) }
  | .write w k =>
    match s.writer with
    | some _ => s
    | none => { s with
        readers := s.readers.eraseIdx i
        writer := some { prog := .write w k, working := s.committed } }
  | _ => { s with readers := s.readers.eraseIdx i }

def writerStep (s : System S W R E A) (wr : Writer S W R E A) : System S W R E A :=
  match wr.prog with
  | .done _ => { s with committed := wr.working, writer := none, log := s.log ++ [wr.trace] }
  | .fail _ => { s with writer := none }
  | .read k => { s with writer := some { wr with prog := k wr.working } }
  | .write w k =>
    match perform w wr.working with
    | .error _ => { s with writer := none }
    | .ok (r, t) => { s with
        writer := some { prog := k r, working := t, trace := wr.trace ++ [(w, r)] } }

def step (s : System S W R E A) : Event C → System S W R E A
  | .start call => { s with readers := s.readers ++ [program call] }
  | .advance i =>
    match s.readers[i]? with
    | some p => readerStep s i p
    | none => s
  | .abandon i => { s with readers := s.readers.eraseIdx i }
  | .proceed =>
    match s.writer with
    | some wr => writerStep perform s wr
    | none => s
  | .rollback => { s with writer := none }

section Soundness
variable [Preorder S] (J : G → S → Prop) (g₀ : G)

/-- A transaction that may go on from a store above `w` with the ghost value `g`. -/
abbrev Continues (w : S) (g : G) (p : Prog S W R E A) : Prop :=
  p.Safe perform J (fun _ g' _ => g' = g₀) w g

structure Sound (s : System S W R E A) : Prop where
  committed : J g₀ s.committed
  reader : ∀ p ∈ s.readers, ∃ w, w ≤ s.committed ∧ Continues perform J g₀ w g₀ p
  writer : ∀ wr ∈ s.writer, s.committed ≤ wr.working ∧
    ∃ w g, w ≤ wr.working ∧ J g wr.working ∧ Continues perform J g₀ w g wr.prog

variable {perform program J g₀} {s : System S W R E A}

lemma Sound.drop (h : Sound perform J g₀ s) (i : ℕ) :
    Sound perform J g₀ { s with readers := s.readers.eraseIdx i } :=
  ⟨h.committed,fun p hp => h.reader p (List.mem_of_mem_eraseIdx hp),h.writer⟩

lemma Sound.rollback (h : Sound perform J g₀ s) : Sound perform J g₀ { s with writer := none } :=
  ⟨h.committed,h.reader,fun _ hwr => absurd hwr (by simp)⟩

lemma Sound.withWriter (h : Sound perform J g₀ s) (hup : s.committed ≤ wr.working)
    (hwr : ∃ w g, w ≤ wr.working ∧ J g wr.working ∧ Continues perform J g₀ w g wr.prog) :
    Sound perform J g₀ { s with writer := some wr } := by
  refine ⟨h.committed,h.reader,fun v hv => ?_⟩
  rw [Option.mem_some_iff] at hv
  rw [← hv]
  exact ⟨hup,hwr⟩

lemma Sound.readerStep (h : Sound perform J g₀ s) {i : ℕ} {p : Prog S W R E A}
    (hp : s.readers[i]? = some p) : Sound perform J g₀ (readerStep s i p) := by
  obtain ⟨w,hle,hs⟩ := h.reader p (List.mem_of_getElem? hp)
  cases p with
  | done a => exact h.drop i
  | fail e => exact h.drop i
  | read k =>
    refine ⟨h.committed,fun q hq => ?_,h.writer⟩
    rcases List.mem_or_eq_of_mem_set hq with ho | rfl
    · exact h.reader q ho
    · exact ⟨s.committed,le_refl _,hs s.committed hle h.committed⟩
  | write op k =>
    simp only [WriteTransactions.readerStep]
    cases hwr : s.writer with
    | some wr => exact h
    | none => exact (h.drop i).withWriter (le_refl _) ⟨w,g₀,hle,h.committed,hs⟩

lemma Sound.writerStep (h : Sound perform J g₀ s) (hwr : s.writer = some wr) :
    Sound perform J g₀ (writerStep perform s wr) := by
  obtain ⟨hup,w,g,hle,hj,hs⟩ := h.writer wr hwr
  unfold WriteTransactions.writerStep
  cases hp : wr.prog with
  | done a =>
    rw [hp] at hs
    have hb : g = g₀ := hs
    refine ⟨hb ▸ hj,fun p hme => ?_,fun _ hv => absurd hv (by simp)⟩
    obtain ⟨v,hv,hc⟩ := h.reader p hme
    exact ⟨v,hv.trans hup,hc⟩
  | fail e => exact h.rollback
  | read k =>
    rw [hp] at hs
    exact h.withWriter hup ⟨wr.working,g,le_refl _,hj,hs wr.working hle hj⟩
  | write op k =>
    rw [hp] at hs
    simp only
    cases hpe : perform op wr.working with
    | error e => exact h.rollback
    | ok x =>
      obtain ⟨g',hj',hm,hr⟩ := hs wr.working x.1 x.2 hle hj hpe
      exact h.withWriter (hup.trans hm) ⟨x.2,g',le_refl _,hj',hr⟩

lemma Sound.step (hpr : ∀ call w, J g₀ w → Continues perform J g₀ w g₀ (program call))
    (h : Sound perform J g₀ s) (e : Event C) :
    Sound perform J g₀ (step perform program s e) := by
  cases e with
  | start call =>
    refine ⟨h.committed,fun p hp => ?_,h.writer⟩
    rcases List.mem_append.mp hp with ho | hn
    · exact h.reader p ho
    rw [List.mem_singleton] at hn
    rw [hn]
    exact ⟨s.committed,le_refl _,hpr call s.committed h.committed⟩
  | advance i =>
    simp only [WriteTransactions.step]
    cases hp : s.readers[i]? with
    | none => exact h
    | some p => exact h.readerStep hp
  | abandon i => exact h.drop i
  | proceed =>
    simp only [WriteTransactions.step]
    cases hwr : s.writer with
    | none => exact h
    | some wr => exact h.writerStep hwr
  | rollback => exact h.rollback

lemma committed_invariant (hpr : ∀ call w, J g₀ w → Continues perform J g₀ w g₀ (program call))
    {s₀ : S} (h₀ : J g₀ s₀) (es : List (Event C)) :
    J g₀ (run (step perform program) { committed := s₀ } es).committed := by
  have hi : Sound perform J g₀ ({ committed := s₀ } : System S W R E A) :=
    ⟨h₀,fun _ hp => absurd hp (by simp),fun _ hwr => absurd hwr (by simp)⟩
  have hs := run_invariant (I := Sound perform J g₀) (fun _ e h => h.step hpr e) hi es
  exact hs.committed

end Soundness

/-- The statements lead from one store to the other and are answered as recorded. -/
def Replays : S → List (W × R) → S → Prop
  | s, [], t => s = t
  | s, x :: xs, t => ∃ u, perform x.1 s = .ok (x.2, u) ∧ Replays u xs t

variable {perform program}

lemma Replays.append {s t u : S} {xs ys : List (W × R)} (h : Replays perform s xs t)
    (h' : Replays perform t ys u) : Replays perform s (xs ++ ys) u := by
  induction xs generalizing s with
  | nil =>
    have hst : s = t := h
    exact hst ▸ h'
  | cons x xs ih =>
    obtain ⟨v,hv,hr⟩ := h
    exact ⟨v,hv,ih hr⟩

variable (perform) in
structure Serial (s₀ : S) (s : System S W R E A) : Prop where
  log : Replays perform s₀ s.log.flatten s.committed
  writer : ∀ wr ∈ s.writer, Replays perform s.committed wr.trace wr.working

variable {s₀ : S} {s : System S W R E A}

lemma Serial.withWriter (h : Serial perform s₀ s) (readers : List (Prog S W R E A))
    (wr : Writer S W R E A) (hwr : Replays perform s.committed wr.trace wr.working) :
    Serial perform s₀ { s with readers := readers, writer := some wr } := by
  refine ⟨h.log,fun v hv => ?_⟩
  rw [Option.mem_some_iff] at hv
  exact hv ▸ hwr

lemma Serial.rollback (h : Serial perform s₀ s) : Serial perform s₀ { s with writer := none } :=
  ⟨h.log,fun _ hv => absurd hv (by simp)⟩

lemma Serial.writerStep (h : Serial perform s₀ s) (hwr : s.writer = some wr) :
    Serial perform s₀ (writerStep perform s wr) := by
  have ht := h.writer wr hwr
  unfold WriteTransactions.writerStep
  cases wr.prog with
  | done a =>
    refine ⟨?_,fun _ hv => absurd hv (by simp)⟩
    rw [List.flatten_append,List.flatten_singleton]
    exact h.log.append ht
  | fail e => exact h.rollback
  | read k => exact h.withWriter _ _ ht
  | write op k =>
    simp only
    cases hp : perform op wr.working with
    | error e => exact h.rollback
    | ok x =>
      have hl : Replays perform wr.working [(op, x.1)] x.2 := ⟨x.2,hp,rfl⟩
      exact h.withWriter _ _ (ht.append hl)

variable (program) in
lemma Serial.step (h : Serial perform s₀ s) (e : Event C) :
    Serial perform s₀ (step perform program s e) := by
  cases e with
  | start call => exact ⟨h.log,h.writer⟩
  | advance i =>
    simp only [WriteTransactions.step]
    cases s.readers[i]? with
    | none => exact h
    | some p =>
      cases p with
      | write op k =>
        simp only [readerStep]
        cases s.writer with
        | some wr => exact h
        | none => exact h.withWriter _ _ rfl
      | _ => exact ⟨h.log,h.writer⟩
  | abandon i => exact ⟨h.log,h.writer⟩
  | proceed =>
    simp only [WriteTransactions.step]
    cases hwr : s.writer with
    | none => exact h
    | some wr => exact h.writerStep hwr
  | rollback => exact h.rollback

variable (program) in
lemma log_replays (s₀ : S) (es : List (Event C)) :
    Replays perform s₀ (run (step perform program) { committed := s₀ } es).log.flatten
      (run (step perform program) { committed := s₀ } es).committed := by
  have hinit : Serial perform s₀ ({ committed := s₀ } : System S W R E A) :=
    ⟨rfl,fun _ hv => absurd hv (by simp)⟩
  have hserial := run_invariant (I := Serial perform s₀) (fun _ e h => h.step program e) hinit es
  exact hserial.log

end System

end Hokora.WriteTransactions
