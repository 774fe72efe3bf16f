import Hokora.EpochAgreement

/-!
# The order of a manager's epochs

Every activation of a manager is recorded with the epoch before it.
-/
namespace Hokora.EpochMonotonicity
open BigEndian EpochAgreement EpochCrypto EpochLifecycle EpochWire PyValue TransitionRuns

structure Watched where
  manager : EpochManager
  activations : List (ℕ × ℕ) := []

def Watched.record (s : Watched) (m' : EpochManager) (activated : Bool) : Watched where
  manager := m'
  activations :=
    if activated then (s.manager.currentEpochId, m'.currentEpochId) :: s.activations
    else s.activations

variable (p : Primitives)

def step (s : Watched) : Event → Watched
  | .createRotate privateKey => s.record (createEpochRotate p s.manager privateKey).2 false
  | .deliverRotate data privateKey noncePrefix now =>
    s.record (handleEpochRotate p s.manager data privateKey noncePrefix now).2
      (answerKeys p s.manager data privateKey).toOption.isSome
  | .deliverAck data noncePrefix now =>
    s.record (handleEpochRotateAck p s.manager data noncePrefix now).2
      (completeKeys p s.manager data).toOption.isSome

def Monotone (s : Watched) : Prop := ∀ x ∈ s.activations, x.1 < x.2

/-- An ack with a valid signature that meets a pending key, and whose key the agreement
accepts, names an epoch after the current one. -/
def AckAdvances (s : Watched) : Event → Prop
  | .deliverAck data _ _ =>
    ∀ a ∈ (readAck s.manager data).toOption, ∀ k ∈ s.manager.pendingPrivateKey,
      (p.exchange k a.ephPubkey).toOption.isSome → s.manager.currentEpochId < a.epochId
  | _ => True

variable {p} {m : EpochManager} {data : Bytes} {a : EpochRotateAck}

lemma readAck_ok (h : readAck m data = .ok a) : decodeEpochRotateAck data = .ok a := by
  obtain ⟨q,hq,h⟩ := bind_ok h
  split at h
  · cases h
  obtain ⟨d,-,h⟩ := bind_ok h
  split_ifs at h
  cases h
  exact hq

lemma deriveEpochKeys_succeeds_iff {sk pub : Bytes} {epochId : ℕ} {x : Bool}
    (h : epochId < 256 ^ 8) : (∃ keys, deriveEpochKeys p sk pub epochId x = .ok keys) ↔
      (p.exchange sk pub).toOption.isSome := by
  unfold deriveEpochKeys
  rw [structPack_of_lt h]
  cases p.exchange sk pub with
  | error e => simp [Except.toOption]
  | ok secret => simp [Except.toOption,pure,Except.pure]

lemma completeKeys_succeeds_iff : (∃ keys, completeKeys p m data = .ok (a, keys)) ↔
      readAck m data = .ok a ∧ ∃ k, m.pendingPrivateKey = some k ∧
        (p.exchange k a.ephPubkey).toOption.isSome := by
  constructor
  · rintro ⟨keys,h⟩
    obtain ⟨hr,k,hk,hd⟩ := completeKeys_ok h
    have hlt := decodeEpochRotateAck_lt (readAck_ok hr)
    exact ⟨hr,k,hk,(deriveEpochKeys_succeeds_iff hlt).mp ⟨keys,hd⟩⟩
  rintro ⟨hr,k,hk,hex⟩
  have hlt := decodeEpochRotateAck_lt (readAck_ok hr)
  obtain ⟨keys,hke⟩ := (deriveEpochKeys_succeeds_iff (x := true) hlt).mpr hex
  refine ⟨keys,?_⟩
  simp [completeKeys,hr,hk,hke]

lemma monotone_record {s : Watched} {m' : EpochManager} {activated : Bool} :
    Monotone (s.record m' activated) ↔
      Monotone s ∧ (activated = true → s.manager.currentEpochId < m'.currentEpochId) := by
  unfold Monotone Watched.record
  cases activated with
  | false => simp
  | true => simp [and_comm]

lemma monotone_step (s : Watched) (e : Event) :
    Monotone (step p s e) ↔ Monotone s ∧ AckAdvances p s e := by
  cases e with
  | createRotate sk =>
    refine monotone_record.trans (and_congr_right fun _ => ?_)
    simp [AckAdvances]
  | deliverRotate data sk np now =>
    refine monotone_record.trans (and_congr_right fun _ => ?_)
    simp only [AckAdvances,iff_true]
    intro hs
    -- The responder's own check makes the new epoch a later one.
    obtain ⟨⟨parsed,keys⟩,hk⟩ := Option.isSome_iff_exists.mp hs
    rw [toOption_eq_some] at hk
    unfold handleEpochRotate
    rw [hk]
    exact (answerKeys_ok hk).2.1
  | deliverAck data np now =>
    refine monotone_record.trans (and_congr_right fun _ => ?_)
    unfold handleEpochRotateAck AckAdvances
    cases hk : completeKeys p s.manager data with
    | error e =>
      refine iff_of_true (fun h => by cases h) ?_
      intro a ha k hp hex
      obtain ⟨keys,hke⟩ := completeKeys_succeeds_iff.mpr ⟨toOption_eq_some.mp ha,k,hp,hex⟩
      rw [hk] at hke
      cases hke
    | ok r =>
      obtain ⟨parsed,keys⟩ := r
      obtain ⟨hr,k,hp,hex⟩ := completeKeys_succeeds_iff.mp ⟨keys,hk⟩
      constructor
      · intro hlt a ha _ _ _
        cases hr.symm.trans (toOption_eq_some.mp ha)
        exact hlt rfl
      · intro had _
        exact had parsed (toOption_eq_some.mpr hr) k hp hex

/-- In a run of one manager the activations are strictly increasing exactly when every ack
that takes effect names an epoch after the one in which it arrives. -/
theorem activations_monotone_iff (p : Primitives) (m : EpochManager) (es : List Event) :
    Monotone (run (step p) ⟨m,[]⟩ es) ↔ Guarded (step p) (AckAdvances p) ⟨m,[]⟩ es := by
  rw [run_iff_guarded monotone_step]
  exact and_iff_right (by simp [Monotone])

def replayedAckRun : List Event :=
  [.createRotate [1], .deliverAck (sampleAck [1]) [] 0, .createRotate [2],
    .deliverAck (sampleAck [1]) [] 0]

theorem replayedAckRun_repeats :
    (createEpochRotate additive sampleLink.initiator [1]).1 = .ok (sampleRotate [1]) ∧
      (handleEpochRotate additive sampleLink.responder (sampleRotate [1]) [7] [] 0).1 =
        .ok (sampleAck [1]) ∧
      (run (step additive) ⟨sampleLink.initiator,[]⟩ replayedAckRun).activations =
        [(1, 1), (0, 1)] ∧
      ¬ Monotone (run (step additive) ⟨sampleLink.initiator,[]⟩ replayedAckRun) := by
  have hl : (run (step additive) ⟨sampleLink.initiator,[]⟩ replayedAckRun).activations =
      [(1, 1), (0, 1)] := by decide +kernel
  refine ⟨by decide +kernel,by decide +kernel,hl,?_⟩
  intro h
  have hlt := h (1, 1) (by rw [hl]; exact List.mem_cons_self)
  exact lt_irrefl 1 hlt

end Hokora.EpochMonotonicity
