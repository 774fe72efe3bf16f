import Hokora.Invites
import Mathlib.Tactic.Linarith

/-!
# Limits on redemption attempts

The tables of attempts, failures and blocks that the invite manager keeps in memory, over runs of
redemptions and clean-ups from an empty manager. The database of each redemption is arbitrary; a run
records which calls passed each gate.
-/
namespace Hokora.InviteLimits
open Database Invites KeyedTable Repositories TransitionRuns
open List
open Option (filter_some getD_some map_some)

structure Call where
  identity : String
  now : ℚ
  unblocked : Bool
  passed : Bool
  failed : Bool
  deriving DecidableEq

structure Limiter where
  manager : InviteManager := {}
  clock : ℚ := 0
  calls : List Call := []

inductive Event where
  | redeem (s : InviteStore) (rawToken identityHash : String) (now : ℚ)
  | cleanupStale (maxAge now : ℚ)

def refused (sha256Hex : String → String) (s : InviteStore) (rawToken : String) (now : ℚ) : Bool :=
  ((s.invites.get? (sha256Hex (bareToken rawToken))).map fun i => (refusal now i).isSome).getD true

def callOf (sha256Hex : String → String) (mgr : InviteManager) (s : InviteStore)
    (rawToken identityHash : String) (now : ℚ) : Call :=
  let unblocked := (Ban.checkNotBlocked s.db.store identityHash).isOk &&
    (mgr.checkRedeemBlock identityHash now).isOk
  let passed := unblocked && (mgr.checkRateLimit identityHash now).2.isOk
  ⟨identityHash,now,unblocked,passed,passed && refused sha256Hex s rawToken now⟩

def step (sha256Hex : String → String) (l : Limiter) : Event → Limiter
  | .redeem s rawToken identityHash now =>
    { manager := (l.manager.redeemInvite sha256Hex s rawToken identityHash now).1
      clock := now
      calls := l.calls ++ [callOf sha256Hex l.manager s rawToken identityHash now] }
  | .cleanupStale maxAge now =>
    { l with manager := l.manager.cleanupStale maxAge now, clock := now }

def timesWhere (p : Call → Bool) (calls : List Call) (k : String) : List ℚ :=
  (calls.filter fun c => p c && c.identity = k).map Call.now

def within (a b : ℚ) (times : List ℚ) : List ℚ := times.filter fun t => a ≤ t && t ≤ b

/-- Some failure at `b` is the last of as many within one window as lead to a block. -/
def Triggered (calls : List Call) (k : String) (b : ℚ) : Prop :=
  b ∈ timesWhere Call.failed calls k ∧ ∃ a, b - a < inviteRateLimitWindow ∧
    inviteFailureBlockThreshold ≤ (within a b (timesWhere Call.failed calls k)).length

structure Limited (calls : List Call) : Prop where
  passes : ∀ k a b, b - a < inviteRateLimitWindow →
    (within a b (timesWhere Call.passed calls k)).length ≤ inviteRateLimitMax
  blocks : ∀ before c, before ++ [c] <+: calls → c.unblocked = true →
    ∀ b, Triggered before c.identity b → b + inviteFailureBlockDuration ≤ c.now

/-- An attempt is appended to a list in the table: the table is not full, or the identity has an
attempt in the window. If the table stays full without its stale entries, the call is refused. -/
def Counted (mgr : InviteManager) (identityHash : String) (now : ℚ) : Prop :=
  let attempts := recent now (timesOf mgr.redemptionAttempts identityHash)
  let table := mgr.redemptionAttempts.set ⟨identityHash,attempts⟩
  table.rows.length < maxInviteRateEntries ∨ attempts ≠ [] ∨
    maxInviteRateEntries ≤ (table.select fun a => !a.stale 600 now).rows.length

/-- The clock does not go back. Every passing attempt is counted, and a clean-up keeps what is
in the window. -/
def Orderly (l : Limiter) : Event → Prop
  | .redeem _ _ identityHash now => l.clock ≤ now ∧ Counted l.manager identityHash now
  | .cleanupStale maxAge now => l.clock ≤ now ∧ inviteRateLimitWindow ≤ maxAge

variable {m m' : InviteManager} {now t : ℚ} {k i : String} {xs : List ℚ}

lemma recent_recent (h : now ≤ t) : recent t (recent now xs) = recent t xs := by
  unfold recent
  rw [filter_filter]
  congr 1
  funext s
  by_cases hs : t - s < inviteRateLimitWindow
  · have hn : now - s < inviteRateLimitWindow := by linarith
    simp [hs,hn]
  · simp [hs]

lemma recent_append {ys : List ℚ} : recent t (xs ++ ys) = recent t xs ++ recent t ys :=
  filter_append ..

variable {a b maxAge : ℚ}

lemma within_length_le (hw : b - a < inviteRateLimitWindow) (hn : now ≤ b) :
    (within a b xs).length ≤ (recent now xs).length := by
  refine (monotone_filter_right xs fun s hs => ?_).length_le
  simp only [Bool.and_eq_true,decide_eq_true_eq] at hs
  simp only [decide_eq_true_eq]
  linarith [hs.1]

lemma within_concat : within a b (xs ++ [t]) =
    within a b xs ++ if a ≤ t ∧ t ≤ b then [t] else [] := by
  by_cases h : a ≤ t ∧ t ≤ b
  · simp [within,h]
  · have hf : (decide (a ≤ t) && decide (t ≤ b)) = false := by simpa using h
    simp [within,hf,h]

lemma timesWhere_concat {p : Call → Bool} {calls : List Call} {c : Call} :
    timesWhere p (calls ++ [c]) k =
      timesWhere p calls k ++ if p c = true ∧ c.identity = k then [c.now] else [] := by
  by_cases h : p c = true ∧ c.identity = k
  · simp [timesWhere,h]
  · have hf : (p c && decide (c.identity = k)) = false := by simpa using h
    simp [timesWhere,hf,h]

def deadline (m : InviteManager) (k : String) : ℚ :=
  ((m.blockedUntil.get? k).map BlockEntry.deadline).getD 0

structure Agrees (now : ℚ) (m m' : InviteManager) : Prop where
  redemptions : ∀ t, now ≤ t → ∀ k,
    recent t (timesOf m'.redemptionAttempts k) = recent t (timesOf m.redemptionAttempts k)
  failures : ∀ t, now ≤ t → ∀ k,
    recent t (timesOf m'.failureAttempts k) = recent t (timesOf m.failureAttempts k)
  blocked : ∀ t, now ≤ t → ∀ k, t < deadline m k → t < deadline m' k

lemma Agrees.refl (now : ℚ) (m : InviteManager) : Agrees now m m :=
  ⟨fun _ _ _ => rfl,fun _ _ _ => rfl,fun _ _ _ h => h⟩

variable {table : Table Attempts.identity}

lemma timesOf_select (ha : inviteRateLimitWindow ≤ maxAge) (ht : now ≤ t) :
    recent t (timesOf (table.select fun a => !a.stale maxAge now) k) =
      recent t (timesOf table k) := by
  rw [timesOf,timesOf,Table.get?_select]
  cases hg : table.get? k with
  | none => rfl
  | some a =>
    by_cases hs : a.stale maxAge now = true
    · have ho : recent t a.times = [] := by
        rw [recent,filter_eq_nil_iff]
        intro s hm
        have hl := all_eq_true.mp hs s hm
        simp only [decide_eq_true_eq] at hl ⊢
        linarith
      rw [filter_some,if_neg (by simp [hs]),map_some,getD_some,ho]
      rfl
    · rw [filter_some,if_pos (by simpa using hs)]

lemma cleanupStale_agrees (ha : inviteRateLimitWindow ≤ maxAge) :
    Agrees now m (m.cleanupStale maxAge now) where
  redemptions _ ht k := timesOf_select ha ht
  failures _ ht k := timesOf_select ha ht
  blocked t ht k h := by
    rw [deadline,InviteManager.cleanupStale,Table.get?_select]
    rw [deadline] at h
    cases hg : m.blockedUntil.get? k with
    | none => simpa [hg] using h
    | some b =>
      rw [hg,map_some,getD_some] at h
      have hk : ¬ b.deadline < now := by linarith
      rwa [filter_some,if_pos (by simpa using hk),map_some,getD_some]

lemma timesOf_set (xs : List ℚ) :
    timesOf (table.set ⟨i,xs⟩) k = if i = k then xs else timesOf table k := by
  rw [timesOf,Table.get?_set]
  split_ifs <;> rfl

lemma Agrees.trans {m'' : InviteManager} (h : Agrees now m m') (h' : Agrees now m' m'') :
    Agrees now m m'' where
  redemptions t ht k := (h'.redemptions t ht k).trans (h.redemptions t ht k)
  failures t ht k := (h'.failures t ht k).trans (h.failures t ht k)
  blocked t ht k hb := h'.blocked t ht k (h.blocked t ht k hb)

def attempts (m : InviteManager) (identityHash : String) (now : ℚ) : Attempts :=
  ⟨identityHash,recent now (timesOf m.redemptionAttempts identityHash)⟩

def cut (m : InviteManager) (identityHash : String) (now : ℚ) : InviteManager :=
  { m with redemptionAttempts := m.redemptionAttempts.set (attempts m identityHash now) }

def tidied (m : InviteManager) (identityHash : String) (now : ℚ) : InviteManager :=
  if maxInviteRateEntries ≤ (cut m identityHash now).redemptionAttempts.rows.length then
    (cut m identityHash now).cleanupStale 600 now
  else cut m identityHash now

lemma cut_agrees : Agrees now m (cut m i now) where
  redemptions t ht k := by
    rw [cut,attempts,timesOf_set]
    split_ifs with hk
    · rw [hk,recent_recent ht]
    · rfl
  failures _ _ _ := rfl
  blocked _ _ _ h := h

lemma tidied_agrees : Agrees now m (tidied m i now) := by
  unfold tidied
  split_ifs
  · exact cut_agrees.trans (cleanupStale_agrees (le_refl _))
  · exact cut_agrees

lemma tidied_entry
    (h : (m.redemptionAttempts.set (attempts m i now)).rows.length < maxInviteRateEntries ∨
      (attempts m i now).times ≠ []) : (tidied m i now).redemptionAttempts.get? i =
      some (attempts m i now) := by
  have hse : (cut m i now).redemptionAttempts.get? i = some (attempts m i now) := by
    rw [cut,Table.get?_set]
    exact if_pos rfl
  unfold tidied
  split_ifs with hfu
  · obtain ⟨s,hs⟩ := exists_mem_of_ne_nil _ (h.resolve_left (Nat.not_lt.mpr hfu))
    have hl : now - s < 600 := of_decide_eq_true (mem_filter.mp hs).2
    have hf : (attempts m i now).stale 600 now = false := by
      rw [Attempts.stale,all_eq_false]
      exact ⟨s,hs,by simp only [decide_eq_true_eq]; linarith⟩
    rw [InviteManager.cleanupStale,Table.get?_select,hse,filter_some,hf]
    rfl
  · exact hse

lemma withAttempt_identity (now : ℚ) (a : Attempts) :
    (withAttempt now a).identity = a.identity := rfl

def append (m : InviteManager) (identityHash : String) (now : ℚ) : InviteManager :=
  let table := m.redemptionAttempts.update identityHash (withAttempt now) (withAttempt_identity now)
  { m with redemptionAttempts := table }

lemma checkRateLimit_eq : m.checkRateLimit i now =
      if inviteRateLimitMax ≤ (attempts m i now).times.length then
        (cut m i now, .error (rateLimitExceeded "Too many redemption attempts"))
      else if maxInviteRateEntries ≤ (tidied m i now).redemptionAttempts.rows.length then
        (tidied m i now, .error (rateLimitExceeded "Too many tracked invite identities"))
      else (append (tidied m i now) i now, .ok ()) := rfl

lemma checkRateLimit_cases (m : InviteManager) (i : String) (now : ℚ) :
    ((m.checkRateLimit i now).2.isOk = false ∧ Agrees now m (m.checkRateLimit i now).1) ∨
      ((m.checkRateLimit i now).2 = .ok () ∧ (attempts m i now).times.length < inviteRateLimitMax ∧
        (m.checkRateLimit i now).1 = append (tidied m i now) i now) := by
  rw [checkRateLimit_eq]
  split_ifs with hm hf
  · exact .inl ⟨rfl,cut_agrees⟩
  · exact .inl ⟨rfl,tidied_agrees⟩
  · exact .inr ⟨rfl,Nat.lt_of_not_le hm,rfl⟩

lemma timesOf_append {a : Attempts} (h : m.redemptionAttempts.get? i = some a) :
    timesOf (append m i now).redemptionAttempts k =
      timesOf m.redemptionAttempts k ++ if i = k then [now] else [] := by
  have hg : (append m i now).redemptionAttempts.get? k = _ :=
    Table.get?_update m.redemptionAttempts i (withAttempt now) (fun _ => rfl) k
  rw [timesOf,timesOf,hg]
  by_cases hk : k = i
  · subst hk
    simp [h,withAttempt]
  · rw [if_neg hk,if_neg (Ne.symm hk),append_nil]

lemma checkRateLimit_room (h : (m.checkRateLimit i now).2 = .ok ()) :
    (tidied m i now).redemptionAttempts.rows.length < maxInviteRateEntries := by
  rw [checkRateLimit_eq] at h
  split_ifs at h with _ hf
  exact Nat.lt_of_not_le hf

lemma Counted.of_passed (hc : Counted m i now) (hok : (m.checkRateLimit i now).2 = .ok ()) :
    (m.redemptionAttempts.set (attempts m i now)).rows.length < maxInviteRateEntries ∨
      (attempts m i now).times ≠ [] := by
  rcases hc with hc | hc | hfull
  · exact .inl hc
  · exact .inr hc
  by_contra hn
  have hcap : maxInviteRateEntries ≤ (cut m i now).redemptionAttempts.rows.length :=
    Nat.le_of_not_lt fun h => hn (.inl h)
  have hr := checkRateLimit_room hok
  rw [tidied,if_pos hcap] at hr
  exact absurd hr (Nat.not_lt.mpr hfull)

lemma checkRateLimit_counted (hc : Counted m i now)
    (hok : (m.checkRateLimit i now).2 = .ok ()) (ht : now ≤ t) :
    recent t (timesOf (m.checkRateLimit i now).1.redemptionAttempts k) =
      recent t (timesOf m.redemptionAttempts k ++ if i = k then [now] else []) := by
  obtain ⟨he,-⟩ | ⟨-,-,hm⟩ := checkRateLimit_cases m i now
  · rw [hok] at he
    cases he
  · rw [hm,timesOf_append (tidied_entry (hc.of_passed hok)),recent_append,recent_append,
      tidied_agrees.redemptions t ht]

lemma checkRateLimit_others (ht : now ≤ t) :
    recent t (timesOf (m.checkRateLimit i now).1.failureAttempts k) =
        recent t (timesOf m.failureAttempts k) ∧
      (t < deadline m k → t < deadline (m.checkRateLimit i now).1 k) := by
  obtain ⟨-,hm⟩ | ⟨-,-,hm⟩ := checkRateLimit_cases m i now
  · exact ⟨hm.failures t ht k,hm.blocked t ht k⟩
  · rw [hm]
    exact ⟨tidied_agrees.failures t ht k,tidied_agrees.blocked t ht k⟩

def roomy (m : InviteManager) (now : ℚ) : InviteManager :=
  if maxInviteRateEntries ≤ m.failureAttempts.rows.length then m.cleanupStale 600 now else m

lemma roomy_agrees : Agrees now m (roomy m now) := by
  unfold roomy
  split_ifs
  · exact cleanupStale_agrees (le_refl _)
  · exact .refl now m

lemma recordFailure_redemptions (ht : now ≤ t) :
    recent t (timesOf (m.recordFailure i now).redemptionAttempts k) =
      recent t (timesOf m.redemptionAttempts k) :=
  roomy_agrees.redemptions t ht k

lemma recordFailure_failures (ht : now ≤ t) :
    recent t (timesOf (m.recordFailure i now).failureAttempts k) =
      recent t (timesOf m.failureAttempts k ++ if i = k then [now] else []) := by
  have hs : timesOf (m.recordFailure i now).failureAttempts k =
      if i = k then recent now (timesOf m.failureAttempts i) ++ [now]
      else timesOf (roomy m now).failureAttempts k := timesOf_set ..
  rw [hs]
  split_ifs with hk
  · subst hk
    rw [recent_append,recent_append,recent_recent ht]
  · rw [roomy_agrees.failures t ht k,append_nil]

lemma recordFailure_deadline (m : InviteManager) (i : String) (ht : now ≤ t)
    (k : String) : (i ≠ k → t < deadline m k → t < deadline (m.recordFailure i now) k) ∧
      (inviteFailureBlockThreshold ≤ (recent now (timesOf m.failureAttempts i)).length + 1 →
        deadline (m.recordFailure i now) i = now + inviteFailureBlockDuration) := by
  have hb : (m.recordFailure i now).blockedUntil =
      if inviteFailureBlockThreshold ≤ (recent now (timesOf m.failureAttempts i) ++ [now]).length
      then (roomy m now).blockedUntil.set ⟨i,now + inviteFailureBlockDuration⟩
      else (roomy m now).blockedUntil := rfl
  constructor
  · intro hk hbl
    have hr := roomy_agrees.blocked t ht k hbl
    rw [deadline,hb]
    split_ifs
    · rwa [Table.get?_set,if_neg hk]
    · exact hr
  · intro hth
    rw [deadline,hb,if_pos (by simpa using hth),Table.get?_set,if_pos rfl]
    rfl

section OneCall
variable {sha256Hex : String → String} {s : InviteStore} {rawToken : String}

lemma redeemToken_manager : (m.redeemToken sha256Hex s rawToken i now).1 =
      if refused sha256Hex s rawToken now then m.recordFailure i now else m := by
  unfold InviteManager.redeemToken refused
  split
  next hn => simp [hn]
  next invite hs =>
    rw [hs,map_some,getD_some]
    split
    next text ht => simp [ht]
    next ht => simp [ht]

inductive Ended (m : InviteManager) (identityHash : String) (now : ℚ) :
    Call → InviteManager → Prop
  | kept : Ended m identityHash now ⟨identityHash,now,false,false,false⟩ m
  | limited {m' : InviteManager} : ¬ now < deadline m identityHash → Agrees now m m' →
      Ended m identityHash now ⟨identityHash,now,true,false,false⟩ m'
  | passed : ¬ now < deadline m identityHash → (m.checkRateLimit identityHash now).2 = .ok () →
      Ended m identityHash now ⟨identityHash,now,true,true,false⟩
        (m.checkRateLimit identityHash now).1
  | failed : ¬ now < deadline m identityHash → (m.checkRateLimit identityHash now).2 = .ok () →
      Ended m identityHash now ⟨identityHash,now,true,true,true⟩
        ((m.checkRateLimit identityHash now).1.recordFailure identityHash now)

lemma redeemInvite_ended (sha256Hex : String → String) (m : InviteManager) (s : InviteStore)
    (rawToken i : String) (now : ℚ) : Ended m i now (callOf sha256Hex m s rawToken i now)
      (m.redeemInvite sha256Hex s rawToken i now).1 := by
  have hr := checkRateLimit_cases m i now
  unfold InviteManager.redeemInvite callOf
  cases Ban.checkNotBlocked s.db.store i with
  | error e => exact .kept
  | ok u =>
    cases hb : m.checkRedeemBlock i now with
    | error e => exact .kept
    | ok u =>
      have hf : ¬ now < deadline m i := by
        intro hlt
        unfold InviteManager.checkRedeemBlock at hb
        rw [deadline] at hlt
        simp only [if_pos hlt] at hb
        cases hb
      rcases hl : m.checkRateLimit i now with ⟨m₁,e | u⟩
      · rw [hl] at hr
        obtain ⟨-,ha⟩ | ⟨hok,-⟩ := hr
        · exact .limited hf ha
        · cases hok
      have hok : (m.checkRateLimit i now).2 = .ok () := congrArg Prod.snd hl
      have hm₁ : m₁ = (m.checkRateLimit i now).1 := (congrArg Prod.fst hl).symm
      simp only [redeemToken_manager,hm₁]
      cases refused sha256Hex s rawToken now with
      | false => exact .passed hf hok
      | true => exact .failed hf hok

end OneCall

structure Tracks (l : Limiter) : Prop where
  past : ∀ c ∈ l.calls, c.now ≤ l.clock
  redemptions : ∀ t, l.clock ≤ t → ∀ k, recent t (timesOf l.manager.redemptionAttempts k) =
    recent t (timesWhere Call.passed l.calls k)
  failures : ∀ t, l.clock ≤ t → ∀ k, recent t (timesOf l.manager.failureAttempts k) =
    recent t (timesWhere Call.failed l.calls k)
  blocked : ∀ t, l.clock ≤ t → ∀ k b, Triggered l.calls k b →
    t < b + inviteFailureBlockDuration → t < deadline l.manager k

variable {l : Limiter} {c : Call} {b : ℚ}

lemma triggered_concat (hf : c.failed = false) :
    Triggered (l.calls ++ [c]) k b ↔ Triggered l.calls k b := by
  simp [Triggered,timesWhere_concat,hf]

lemma past_concat (h : Tracks l) (hn : l.clock ≤ now) (hc : c.now = now) :
    ∀ q ∈ l.calls ++ [c], q.now ≤ now := by
  intro q hq
  rcases mem_append.mp hq with hq | hq
  · exact (h.past q hq).trans hn
  · rw [mem_singleton.mp hq,hc]

lemma Tracks.agrees (h : Tracks l) (hn : l.clock ≤ now) (ha : Agrees now l.manager m') :
    Tracks { l with manager := m', clock := now } where
  past q hq := (h.past q hq).trans hn
  redemptions t ht k := (ha.redemptions t ht k).trans (h.redemptions t (hn.trans ht) k)
  failures t ht k := (ha.failures t ht k).trans (h.failures t (hn.trans ht) k)
  blocked t ht k b hb hlt := ha.blocked t ht k (h.blocked t (hn.trans ht) k b hb hlt)

lemma Tracks.uncounted (h : Tracks l) (hc : c.now ≤ l.clock) (hp : c.passed = false)
    (hf : c.failed = false) : Tracks { l with calls := l.calls ++ [c] } where
  past q hq := by
    rcases mem_append.mp hq with hq | hq
    · exact h.past q hq
    · rwa [mem_singleton.mp hq]
  redemptions t ht k := by
    rw [h.redemptions t ht k,timesWhere_concat,if_neg (by simp [hp]),append_nil]
  failures t ht k := by
    rw [h.failures t ht k,timesWhere_concat,if_neg (by simp [hf]),append_nil]
  blocked t ht k b hb := h.blocked t ht k b ((triggered_concat hf).mp hb)

lemma Tracks.passed (h : Tracks l) (hn : l.clock ≤ now) (hc : Counted l.manager i now)
    (hok : (l.manager.checkRateLimit i now).2 = .ok ()) :
    Tracks { manager := (l.manager.checkRateLimit i now).1
             clock := now
             calls := l.calls ++ [⟨i,now,true,true,false⟩] } where
  past := past_concat h hn rfl
  redemptions t ht k := by
    rw [checkRateLimit_counted hc hok ht,timesWhere_concat,recent_append,recent_append,
      h.redemptions t (hn.trans ht) k]
    simp
  failures t ht k := by
    rw [(checkRateLimit_others ht).1,h.failures t (hn.trans ht) k,
      timesWhere_concat,if_neg (by simp),append_nil]
  blocked t ht k b hb hlt :=
    (checkRateLimit_others ht).2 (h.blocked t (hn.trans ht) k b ((triggered_concat rfl).mp hb) hlt)

lemma triggered_now (h : Tracks l) (hn : l.clock ≤ now)
    (hf : ¬ now < deadline l.manager i) (ht : now ≤ t)
    (hb : Triggered (l.calls ++ [⟨i,now,true,true,true⟩]) i b)
    (hlt : t < b + inviteFailureBlockDuration) : b = now ∧ inviteFailureBlockThreshold ≤
      (recent now (timesOf l.manager.failureAttempts i)).length + 1 := by
  obtain ⟨hm,a,hw,hth⟩ := hb
  rw [timesWhere_concat,if_pos ⟨rfl,rfl⟩] at hm hth
  rw [within_concat] at hth
  by_cases hbn : b = now
  · subst hbn
    refine ⟨rfl,?_⟩
    have hs : (within a b (timesWhere Call.failed l.calls i)).length ≤ _ :=
      within_length_le hw (le_refl b)
    rw [h.failures b hn]
    split_ifs at hth <;> simp at hth <;> omega
  -- An earlier failure would have blocked this call.
  have ho : b ∈ timesWhere Call.failed l.calls i := by
    rcases mem_append.mp hm with hm | hm
    · exact hm
    · exact absurd (mem_singleton.mp hm) hbn
  obtain ⟨q,hq,rfl⟩ := mem_map.mp ho
  have hle : q.now ≤ now := (h.past q (mem_filter.mp hq).1).trans hn
  have hl : ¬(a ≤ now ∧ now ≤ q.now) := fun hin => hbn (le_antisymm hle hin.2)
  rw [if_neg hl,append_nil] at hth
  exact absurd (h.blocked now hn i q.now ⟨ho,a,hw,hth⟩ (by linarith)) hf

lemma Tracks.failed (h : Tracks l) (hn : l.clock ≤ now) (hc : Counted l.manager i now)
    (hf : ¬ now < deadline l.manager i) (hok : (l.manager.checkRateLimit i now).2 = .ok ()) :
    Tracks { manager := (l.manager.checkRateLimit i now).1.recordFailure i now
             clock := now
             calls := l.calls ++ [⟨i,now,true,true,true⟩] } where
  past := past_concat h hn rfl
  redemptions t ht k := by
    rw [recordFailure_redemptions ht,checkRateLimit_counted hc hok ht,timesWhere_concat,
      recent_append,recent_append,h.redemptions t (hn.trans ht) k]
    simp
  failures t ht k := by
    rw [recordFailure_failures ht,timesWhere_concat,recent_append,recent_append,
      (checkRateLimit_others ht).1,h.failures t (hn.trans ht) k]
    simp
  blocked t ht k b hb hlt := by
    have hd := recordFailure_deadline (l.manager.checkRateLimit i now).1 i ht k
    by_cases hk : i = k
    · subst hk
      obtain ⟨rfl,hth⟩ := triggered_now h hn hf ht hb hlt
      rw [hd.2 (by rwa [(checkRateLimit_others (le_refl b)).1])]
      exact hlt
    · refine hd.1 hk ((checkRateLimit_others ht).2 (h.blocked t (hn.trans ht) k b ?_ hlt))
      simpa [Triggered,timesWhere_concat,hk] using hb

lemma Limited.concat (h : Limited l.calls) (hpa : c.passed = true →
      (recent c.now (timesWhere Call.passed l.calls c.identity)).length < inviteRateLimitMax)
    (hf : c.unblocked = true → ∀ b, Triggered l.calls c.identity b →
      b + inviteFailureBlockDuration ≤ c.now) : Limited (l.calls ++ [c]) where
  passes k a b hw := by
    rw [timesWhere_concat]
    split_ifs with hc
    · obtain ⟨hp,rfl⟩ := hc
      rw [within_concat]
      split_ifs with hin
      · have ho : (within a b (timesWhere Call.passed l.calls c.identity)).length ≤ _ :=
          within_length_le hw hin.2
        have hr := hpa hp
        rw [length_append,length_singleton]
        omega
      · rw [append_nil]
        exact h.passes c.identity a b hw
    · rw [append_nil]
      exact h.passes k a b hw
  blocks before q hq hun := by
    rcases prefix_concat_iff.mp hq with hq | hq
    · obtain ⟨rfl,hl⟩ := append_inj' hq rfl
      cases hl
      exact hf hun
    · exact h.blocks before q hq hun

lemma step_limited {sha256Hex : String → String} {e : Event} (h : Tracks l ∧ Limited l.calls)
    (hok : Orderly l e) :
    Tracks (step sha256Hex l e) ∧ Limited (step sha256Hex l e).calls := by
  obtain ⟨ht,hl⟩ := h
  cases e with
  | cleanupStale maxAge now => exact ⟨ht.agrees hok.1 (cleanupStale_agrees hok.2),hl⟩
  | redeem s rawToken i now =>
    obtain ⟨hn,hc⟩ := hok
    -- Who is not blocked has no block of the last hour.
    have hla : ¬ now < deadline l.manager i →
        ∀ b, Triggered l.calls i b → b + inviteFailureBlockDuration ≤ now := by
      intro hf b hb
      by_contra hlt
      exact hf (ht.blocked now hn i b hb (lt_of_not_ge hlt))
    have hro : (l.manager.checkRateLimit i now).2 = .ok () →
        (recent now (timesWhere Call.passed l.calls i)).length < inviteRateLimitMax := by
      intro hr
      obtain ⟨her,-⟩ | ⟨-,hro,-⟩ := checkRateLimit_cases l.manager i now
      · rw [hr] at her
        cases her
      · rwa [attempts,ht.redemptions now hn] at hro
    have he := redeemInvite_ended sha256Hex l.manager s rawToken i now
    unfold step
    simp only
    generalize callOf sha256Hex l.manager s rawToken i now = c at he ⊢
    generalize (l.manager.redeemInvite sha256Hex s rawToken i now).1 = m' at he ⊢
    cases he with
    | kept => exact ⟨(ht.agrees hn (.refl now _)).uncounted (le_refl now) rfl rfl,
        hl.concat nofun nofun⟩
    | limited hf ha => exact ⟨(ht.agrees hn ha).uncounted (le_refl now) rfl rfl,
        hl.concat nofun fun _ => hla hf⟩
    | passed hf hr => exact ⟨ht.passed hn hc hr,hl.concat (fun _ => hro hr) fun _ => hla hf⟩
    | failed hf hr => exact ⟨ht.failed hn hc hf hr,hl.concat (fun _ => hro hr) fun _ => hla hf⟩

/-- In an orderly run both limits hold. -/
theorem attempts_limited (sha256Hex : String → String) {es : List Event}
    (h : Guarded (step sha256Hex) Orderly {} es) : Limited (run (step sha256Hex) {} es).calls := by
  refine (Guarded.invariant (I := fun l => Tracks l ∧ Limited l.calls)
    (fun l e hl hok => step_limited hl hok) ?_ h).2
  have he : ∀ k b, ¬ Triggered [] k b := fun k b hb => absurd hb.1 not_mem_nil
  refine ⟨⟨nofun,fun _ _ _ => rfl,fun _ _ _ => rfl,fun _ _ k b hb => absurd hb (he k b)⟩,
    ⟨fun _ _ _ _ => Nat.zero_le _,fun before c hc => ?_⟩⟩
  exact absurd (prefix_nil.mp hc) (by simp)

def free : InviteStore where
  db := { store := {} }
  invites := .singleton { tokenHash := "t", createdBy := "alice", maxUses := 0 }

def visit (identityHash : String) (now : ℚ) : Event := .redeem free "t" identityHash now

instance (m : InviteManager) (identityHash : String) (now : ℚ) :
    Decidable (Counted m identityHash now) :=
  inferInstanceAs (Decidable (_ ∨ _ ∨ _))

instance (l : Limiter) : (e : Event) → Decidable (Orderly l e)
  | .redeem _ _ _ _ | .cleanupStale _ _ => inferInstanceAs (Decidable (_ ∧ _))

theorem oneGuest_limited : Limited
    (run (step id) {} [visit "guest" 1, .cleanupStale 3600 2, visit "guest" 3]).calls :=
  attempts_limited id (by decide +kernel)

lemma fiveGuests_pass : (run (step id) { clock := 601 } (replicate 5 (visit "guest" 601))).calls =
      replicate 5 ⟨"guest",601,true,true,false⟩ := by
  decide +kernel

lemma run_calls (sha256Hex : String → String) (cs : List Call) (l : Limiter) (es : List Event) :
    (run (step sha256Hex) { l with calls := cs ++ l.calls } es).calls =
      cs ++ (run (step sha256Hex) l es).calls := by
  induction es generalizing l with
  | nil => rfl
  | cons e es ih =>
    have hn : step sha256Hex { l with calls := cs ++ l.calls } e =
        { step sha256Hex l e with calls := cs ++ (step sha256Hex l e).calls } := by
      cases e <;> simp [step]
    rw [run_cons,run_cons,hn]
    exact ih _

def visitor (i : ℕ) : String := String.ofList (replicate i 'v')

lemma visitor_injective : Function.Injective visitor := by
  intro i j h
  have hl : replicate i 'v' = replicate j 'v' := String.ofList_injective h
  simpa using congrArg List.length hl

lemma visit_fresh (hf : m.redemptionAttempts.get? k = none) (hb : m.blockedUntil = .empty)
    (hn : 0 ≤ now) (hr : (tidied m k now).redemptionAttempts.rows.length < maxInviteRateEntries) :
    (m.redeemInvite id free "t" k now).1 = append (tidied m k now) k now ∧
      callOf id m free "t" k now = ⟨k,now,true,true,false⟩ := by
  have hba : Ban.checkNotBlocked free.db.store k = .ok () := by
    rw [Ban.checkNotBlocked_ok,Ban.isBlocked]
    split_ifs <;> rfl
  have hbl : m.checkRedeemBlock k now = .ok () := by
    rw [InviteManager.checkRedeemBlock,hb]
    exact if_neg (not_lt.mpr hn)
  have hs : (attempts m k now).times.length = 0 := by
    rw [attempts,timesOf,hf]
    rfl
  have hra : m.checkRateLimit k now = (append (tidied m k now) k now, .ok ()) := by
    rw [checkRateLimit_eq,hs,if_neg (by decide),if_neg (Nat.not_le.mpr hr)]
  have hg : refused id free "t" now = false := rfl
  unfold InviteManager.redeemInvite callOf
  rw [hba,hbl,hra,hg]
  exact ⟨by simp [redeemToken_manager,hg],rfl⟩

lemma cut_rows (hf : m.redemptionAttempts.get? k = none) :
    (cut m k now).redemptionAttempts.rows = m.redemptionAttempts.rows ++ [⟨k,[]⟩] := by
  have hn : attempts m k now = ⟨k,[]⟩ := by
    rw [attempts,timesOf,hf]
    rfl
  rw [cut,hn,Table.set_rows_of_none hf]

structure Crowded (n : ℕ) (m : InviteManager) : Prop where
  rows : m.redemptionAttempts.rows = (range n).map fun i => ⟨visitor i,[0]⟩
  failures : m.failureAttempts = .empty
  blocks : m.blockedUntil = .empty

variable {n : ℕ}

lemma Crowded.fresh (h : Crowded n m) (hk : ∀ i < n, visitor i ≠ k) :
    m.redemptionAttempts.get? k = none := by
  rw [Table.get?_eq_none,h.rows,map_map,mem_map]
  rintro ⟨i,hi,heq⟩
  exact hk i (mem_range.mp hi) heq

lemma Crowded.cut_length (h : Crowded n m) (hk : ∀ i < n, visitor i ≠ k) :
    (cut m k now).redemptionAttempts.rows.length = n + 1 := by
  rw [cut_rows (h.fresh hk),h.rows,length_append,length_map,length_range, length_singleton]

lemma Crowded.visit (h : Crowded n m) (hn : n + 1 < maxInviteRateEntries) :
    Crowded (n + 1) (m.redeemInvite id free "t" (visitor n) 0).1 := by
  have ho : ∀ i < n, visitor i ≠ visitor n := fun i hi he => hi.ne (visitor_injective he)
  have hl : (cut m (visitor n) 0).redemptionAttempts.rows.length = n + 1 := h.cut_length ho
  have ht : tidied m (visitor n) 0 = cut m (visitor n) 0 := if_neg (by omega)
  rw [(visit_fresh (h.fresh ho) h.blocks (le_refl 0) (by rwa [ht,hl])).1,ht]
  refine ⟨?_,h.failures,h.blocks⟩
  have hu : (append (cut m (visitor n) 0) (visitor n) 0).redemptionAttempts.rows = _ :=
    Table.update_rows _ _ (withAttempt 0) fun _ => rfl
  rw [hu,cut_rows (h.fresh ho),h.rows,range_succ,map_append,map_append,map_map]
  congr 1
  · exact map_congr_left fun i hi => if_neg (ho i (mem_range.mp hi))
  · exact congrArg (fun a => [a]) (if_pos rfl)

lemma crowded_run (n : ℕ) (hn : n < maxInviteRateEntries) : Crowded n
    (run (step id) {} ((range n).map fun i => visit (visitor i) 0)).manager := by
  induction n with
  | zero => exact ⟨rfl,rfl,rfl⟩
  | succ n ih =>
    rw [range_succ,map_append,run_append]
    exact (ih (by omega)).visit hn

lemma Crowded.guest (h : Crowded n m) (hn : n + 1 = maxInviteRateEntries) :
    (m.redeemInvite id free "t" "guest" 601).1 = {} ∧
      callOf id m free "t" "guest" 601 = ⟨"guest",601,true,true,false⟩ := by
  have ho : ∀ i < n, visitor i ≠ "guest" := by
    intro i _ he
    have hg : 'g' ∈ replicate i 'v' := by
      have hl := congrArg String.toList he
      rw [visitor,String.toList_ofList] at hl
      rw [hl]
      decide
    exact absurd (eq_of_mem_replicate hg) (by decide)
  have hle : (cut m "guest" 601).redemptionAttempts.rows.length = n + 1 := h.cut_length ho
  have hs : (cut m "guest" 601).redemptionAttempts.select (fun a => !a.stale 600 601) = .empty := by
    apply Table.ext
    refine filter_eq_nil_iff.mpr fun a ha => ?_
    rw [cut_rows (h.fresh ho),h.rows] at ha
    rcases mem_append.mp ha with ha | ha
    · obtain ⟨i,-,rfl⟩ := mem_map.mp ha
      simp only [Attempts.stale,all_cons,all_nil]
      norm_num
    · rw [mem_singleton.mp ha]
      simp [Attempts.stale]
  have hf : (cut m "guest" 601).failureAttempts = .empty := h.failures
  have hb : (cut m "guest" 601).blockedUntil = .empty := h.blocks
  have ht : tidied m "guest" 601 = {} := by
    rw [tidied,if_pos (by omega),InviteManager.cleanupStale,hs,hf,hb]
    rfl
  have hr : (tidied m "guest" 601).redemptionAttempts.rows.length < maxInviteRateEntries := by
    rw [ht]
    decide
  obtain ⟨hm,hc⟩ := visit_fresh (h.fresh ho) h.blocks (by norm_num) hr
  exact ⟨by rw [hm,ht]; rfl,hc⟩

def uncountedRun : List Event :=
  ((range (maxInviteRateEntries - 1)).map fun i => visit (visitor i) 0) ++
    replicate 6 (visit "guest" 601)

lemma uncountedRun_calls : ∃ cs, (run (step id) {} uncountedRun).calls =
    cs ++ replicate 6 ⟨"guest",601,true,true,false⟩ := by
  have hcr := crowded_run (maxInviteRateEntries - 1) (by decide)
  rw [uncountedRun,run_append]
  generalize run (step id) {} ((range (maxInviteRateEntries - 1)).map fun i =>
    visit (visitor i) 0) = l at hcr ⊢
  obtain ⟨hm,hc⟩ := hcr.guest rfl
  have hf : step id l (visit "guest" 601) =
      { ({ clock := 601 } : Limiter) with
        calls := (l.calls ++ [⟨"guest",601,true,true,false⟩]) ++ [] } := by
    rw [visit,step,hm,hc,append_nil]
  rw [replicate_succ,run_cons,hf,run_calls,fiveGuests_pass,append_assoc]
  exact ⟨l.calls,rfl⟩

theorem uncountedRun_not_limited :
    6 ≤ (within 601 601 (timesWhere Call.passed (run (step id) {} uncountedRun).calls
      "guest")).length ∧
      ¬ Limited (run (step id) {} uncountedRun).calls := by
  have hs : 6 ≤ (within 601 601 (timesWhere Call.passed
      (run (step id) {} uncountedRun).calls "guest")).length := by
    obtain ⟨cs,hcs⟩ := uncountedRun_calls
    have hg : (within 601 601 (timesWhere Call.passed (replicate 6
        ⟨"guest",601,true,true,false⟩) "guest")).length = 6 := by decide +kernel
    rw [hcs,timesWhere,filter_append,map_append,within,filter_append,length_append]
    exact hg.symm.le.trans (Nat.le_add_left _ _)
  refine ⟨hs,fun h => ?_⟩
  exact absurd (hs.trans (h.passes "guest" 601 601 (by norm_num [inviteRateLimitWindow])))
    (by decide)

end Hokora.InviteLimits
