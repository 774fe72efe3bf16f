import Hokora.EpochLifecycle
import Hokora.TransitionRuns

/-!
# Nonces across restarts

A manager encrypts, activates keys, is stored and restarted in any order.
-/
namespace Hokora.EpochNonces
open BigEndian EpochCrypto EpochLifecycle TransitionRuns

structure Node where
  manager : EpochManager
  states : EpochStates := .empty
  used : List (Bytes × Bytes) := []

inductive Event where
  | encrypt (plaintext : Bytes)
  | activate (epochId : ℕ) (sendKey recvKey i2rKeyBytes noncePrefix : Bytes) (now : ℚ)
  | persist (sendNonce recvNonce : Bytes) (reachable : Bool)
  | restart (reachable : Bool)

def sealedWith (p : Primitives) (m : EpochManager) (plaintext : Bytes) : Option (Bytes × Bytes) :=
  match takeNonce m, (EpochLifecycle.encrypt p m plaintext).1 with
  | .ok (nonce, _), .ok _ => some (m.sendKey.getD [], nonce)
  | _, _ => none

def step (p : Primitives) (s : Node) : Event → Node
  | .encrypt plaintext =>
    { s with
      manager := (EpochLifecycle.encrypt p s.manager plaintext).2
      used := (sealedWith p s.manager plaintext).toList ++ s.used }
  | .activate epochId sendKey recvKey i2rKeyBytes noncePrefix now =>
    { s with
      manager := activateEpoch p s.manager epochId sendKey recvKey i2rKeyBytes noncePrefix now }
  | .persist sendNonce recvNonce reachable =>
    { s with states := persistState p s.manager s.states sendNonce recvNonce reachable }
  | .restart reachable =>
    { s with manager := loadState p (renew s.manager) s.states reachable }

/-- The send key of a new epoch has sealed nothing yet. -/
def FreshKey (s : Node) : Event → Prop
  | .activate _ sendKey _ _ _ _ => ∀ u ∈ s.used, u.1 ≠ sendKey
  | _ => True

/-- The stored counter is beyond every counter used with the stored send key. -/
def CounterSaved (p : Primitives) (s : Node) : Event → Prop
  | .restart reachable =>
    ∀ row ∈ storedState (renew s.manager) s.states reachable, ∀ u ∈ s.used,
      restoreKey p (getKek p (renew s.manager)) row.currentKeySend none = some u.1 →
        nonceCounter u.2 < row.messageCounter
  | _ => True

instance (s : Node) : (e : Event) → Decidable (FreshKey s e)
  | .activate _ _ _ _ _ _ => inferInstanceAs (Decidable (∀ u ∈ _, _))
  | .encrypt _ | .persist _ _ _ | .restart _ => isTrue trivial

instance (p : Primitives) (s : Node) : (e : Event) → Decidable (CounterSaved p s e)
  | .restart _ => inferInstanceAs (Decidable (∀ row ∈ _, ∀ u ∈ _, _ → _))
  | .encrypt _ | .activate _ _ _ _ _ _ | .persist _ _ _ => isTrue trivial

variable {s : Node}

section Invariant
variable {p : Primitives}

structure Inv (s : Node) : Prop where
  ahead : ∀ u ∈ s.used, s.manager.sendKey = some u.1 → nonceCounter u.2 < s.manager.messageCounter
  distinct : s.used.Nodup

lemma sealedWith_some {m : EpochManager} {pt : Bytes} {u : Bytes × Bytes}
    (h : sealedWith p m pt = some u) : m.sendKey = some u.1 ∧ nonceCounter u.2 = m.messageCounter ∧
      (EpochLifecycle.encrypt p m pt).2 = { m with messageCounter := m.messageCounter + 1 } := by
  unfold sealedWith at h
  split at h
  next nonce m' frame ht hf =>
    cases h
    have hn := takeNonce_ok ht
    refine ⟨?_,hn.1,?_⟩
    · have ha : isActive m = true := by
        unfold takeNonce at ht
        split_ifs at ht with hi
        rwa [Bool.not_eq_false] at hi
      have hs := (Bool.and_eq_true _ _ ▸ ha : _ ∧ _).1
      obtain ⟨key,hk⟩ := Option.isSome_iff_exists.mp hs
      rw [hk]
      rfl
    · rw [← hn.2]
      simp [EpochLifecycle.encrypt,ht]
  · cases h

lemma encrypt_counter (m : EpochManager) (pt : Bytes) :
    (EpochLifecycle.encrypt p m pt).2.sendKey = m.sendKey ∧
      m.messageCounter ≤ (EpochLifecycle.encrypt p m pt).2.messageCounter := by
  unfold EpochLifecycle.encrypt
  cases ht : takeNonce m with
  | error e => exact ⟨rfl,le_refl _⟩
  | ok r =>
    have hn : _ ∧ r.2 = { m with messageCounter := m.messageCounter + 1 } := takeNonce_ok ht
    rw [hn.2]
    exact ⟨rfl,Nat.le_succ _⟩

lemma Inv.encrypt (h : Inv s) (pt : Bytes) : Inv (step p s (.encrypt pt)) := by
  cases hu : sealedWith p s.manager pt with
  | none =>
    have hus : (step p s (.encrypt pt)).used = s.used := by
      simp only [step,hu]
      rfl
    have hc := encrypt_counter (p := p) s.manager pt
    refine ⟨?_,by rw [hus]; exact h.distinct⟩
    intro u hme hk
    rw [hus] at hme
    have hlt := h.ahead u hme (hc.1 ▸ hk)
    exact lt_of_lt_of_le hlt hc.2
  | some u =>
    have hs := sealedWith_some hu
    have hus : (step p s (.encrypt pt)).used = u :: s.used := by
      simp only [step,hu]
      rfl
    have hm : (step p s (.encrypt pt)).manager =
        { s.manager with messageCounter := s.manager.messageCounter + 1 } := hs.2.2
    refine ⟨?_,?_⟩
    · intro v hme hk
      rw [hus] at hme
      rw [hm] at hk ⊢
      change nonceCounter v.2 < s.manager.messageCounter + 1
      cases List.mem_cons.mp hme with
      | inl he =>
        rw [he,hs.2.1]
        omega
      | inr ho =>
        have hlt := h.ahead v ho hk
        omega
    · -- The new nonce has the live counter; every earlier one under this key has less.
      rw [hus,List.nodup_cons]
      refine ⟨?_,h.distinct⟩
      intro hme
      have hlt := h.ahead u hme hs.1
      omega

lemma Inv.activate (h : Inv s) {epochId : ℕ} {sendKey recvKey i2rKeyBytes np : Bytes}
    {now : ℚ} (hf : ∀ u ∈ s.used, u.1 ≠ sendKey) :
    Inv (step p s (.activate epochId sendKey recvKey i2rKeyBytes np now)) := by
  refine ⟨?_,h.distinct⟩
  intro u hu hke
  have hk : sendKey = u.1 := Option.some.inj hke
  exact absurd hk.symm (hf u hu)

lemma Inv.restart (h : Inv s) {re : Bool} (hs : CounterSaved p s (.restart re)) :
    Inv (step p s (.restart re)) := by
  refine ⟨?_,h.distinct⟩
  intro u hu hk
  change (loadState p (renew s.manager) s.states re).sendKey = some u.1 at hk
  change nonceCounter u.2 < (loadState p (renew s.manager) s.states re).messageCounter
  unfold loadState at hk ⊢
  cases hr : storedState (renew s.manager) s.states re with
  | none =>
    rw [hr] at hk
    cases hk
  | some row =>
    rw [hr] at hk
    exact hs row hr u hu hk

lemma Inv.step (h : Inv s) (e : Event) (hok : FreshKey s e ∧ CounterSaved p s e) :
    Inv (step p s e) := by
  cases e with
  | encrypt plaintext => exact h.encrypt plaintext
  | activate epochId sendKey recvKey i2rKeyBytes noncePrefix now => exact h.activate hok.1
  | persist sendNonce recvNonce re => exact ⟨h.ahead,h.distinct⟩
  | restart re => exact h.restart hok.2

end Invariant

/-- In every run whose epoch keys are fresh and whose restarts find a counter beyond
those already used, no two payloads share send key and nonce. -/
theorem nonces_unique (p : Primitives) (s : Node) (hs : s.used = []) (es : List Event)
    (h : Guarded (step p) (fun s e => FreshKey s e ∧ CounterSaved p s e) s es) :
    (run (step p) s es).used.Nodup := by
  have hin : Inv s := by
    refine ⟨?_,by rw [hs]; exact List.nodup_nil⟩
    intro u hu
    rw [hs] at hu
    cases hu
  exact (h.invariant (I := Inv) (fun _ e hi hok => hi.step e hok) hin).distinct

/-! One epoch, persisted before or after its first payload. -/

def sampleNode : Node where
  manager := { peerIdentityHash := "b", isInitiator := true, localIdentity := none
               peerIdentity := none, hasDatabase := true }

def persistedRun : List Event :=
  [.activate 1 [1] [2] [1] (List.replicate 16 9) 0, .encrypt [5], .persist [] [] true,
    .restart true, .encrypt [6]]

theorem persistedRun_unique : (run (step additive) sampleNode persistedRun).used.length = 2 ∧
      (run (step additive) sampleNode persistedRun).used.Nodup :=
  ⟨by decide +kernel,nonces_unique additive sampleNode rfl persistedRun (by decide +kernel)⟩

def staleRun : List Event :=
  [.activate 1 [1] [2] [1] (List.replicate 16 9) 0, .persist [] [] true, .encrypt [5],
    .restart true, .encrypt [6]]

theorem staleRun_repeats : Guarded (step additive) FreshKey sampleNode staleRun ∧
      ¬ (run (step additive) sampleNode staleRun).used.Nodup :=
  ⟨by decide +kernel,by decide +kernel⟩

end Hokora.EpochNonces
