import Mathlib.Tactic.Linarith
import Hokora.RateLimit
import Hokora.TransitionRuns

/-!
# What the limiter lets through over a run

Runs of the rate limiter on a clock that does not go back, with exact rational times. The limiter
forgets entries when its tables are full, after ten minutes, and when `cleanup_stale` is called; the
results are for clean-ups with an age of at least these ten minutes (the node uses an hour).
-/
namespace Hokora.RateBounds
open KeyedTable.Table (get?_key get?_select get?_set)
open Constants (maxRateLimitBuckets)
open List
open PyValue RateLimit TransitionRuns
open RateLimiter (checkRateLimit checkSlowmode cleanupStale consumeFrom)

inductive Call where
  | rate (identityHash : String)
  | slowmode (identityHash channelId : String) (slowmodeSeconds : ℤ)
  | cleanup (age : { age : ℚ // 600 ≤ age })
  deriving DecidableEq

structure Event where
  call : Call
  now : ℚ

def perform (lim : RateLimiter) (e : Event) : RateLimiter × Py Unit :=
  match e.call with
  | .rate identityHash => lim.checkRateLimit identityHash e.now
  | .slowmode identityHash channelId slowmodeSeconds =>
    lim.checkSlowmode identityHash channelId slowmodeSeconds e.now
  | .cleanup age => (lim.cleanupStale age e.now, .ok ())

def step (lim : RateLimiter) (e : Event) : RateLimiter := (perform lim e).1

/-- The clock does not go back. -/
def Timed (es : List Event) : Prop := es.Pairwise fun e e' => e.now ≤ e'.now

instance (es : List Event) : Decidable (Timed es) := inferInstanceAs (Decidable (es.Pairwise _))

/-- How many calls of one kind return in `[t₁, t₂]`. -/
def accepted (call : Call) (t₁ t₂ : ℚ) : RateLimiter → List Event → ℕ
  | _, [] => 0
  | lim, e :: es =>
    (if e.call = call ∧ (perform lim e).2.isOk ∧ t₁ ≤ e.now ∧ e.now ≤ t₂ then 1 else 0) +
      accepted call t₁ t₂ (step lim e) es

/-- What an event at `t` does to the bucket of one identity, and whether it lets a call through. -/
inductive Touch (full : TokenBucket) (t : ℚ) : Option TokenBucket → Option TokenBucket → Bool → Prop
  | kept (o) : Touch full t o o false
  | forgotten {b} (h : 600 < t - b.lastRefill) : Touch full t (some b) none false
  | consumed (o) :
    Touch full t o (some ((o.getD full).consume t).1) ((o.getD full).consume t).2

def fullBucket (lim : RateLimiter) (identityHash : String) (now : ℚ) : TokenBucket :=
  ⟨identityHash,lim.maxTokens,lim.maxTokens,lim.refillRate,now⟩

/-- The limiter after the cleanup made for want of room. -/
def room (lim : RateLimiter) (n : ℕ) (t : ℚ) : RateLimiter :=
  if maxRateLimitBuckets ≤ n then lim.cleanupStale 600 t else lim

variable {lim : RateLimiter} {i j : String} {t t₁ t₂ clock m r : ℚ} {b full : TokenBucket}
  {o o' : Option TokenBucket} {ok : Bool} {e : Event} {es : List Event}

lemma cleanup_touch {age : ℚ} (h : 600 ≤ age) :
    Touch full t (lim.buckets.get? i) ((lim.cleanupStale age t).buckets.get? i) false := by
  rw [cleanupStale,get?_select]
  cases lim.buckets.get? i with
  | none => exact .kept none
  | some b =>
    by_cases ho : age < t - b.lastRefill
    · rw [Option.filter_some,if_neg (by rw [decide_eq_true ho]; decide)]
      exact .forgotten (h.trans_lt ho)
    · rw [Option.filter_some,if_pos (by rw [decide_eq_false ho]; rfl)]
      exact .kept _

lemma room_touch (n : ℕ) :
    Touch full t (lim.buckets.get? i) ((room lim n t).buckets.get? i) false := by
  unfold room
  split_ifs
  · exact cleanup_touch le_rfl
  · exact .kept _

lemma consumeFrom_touch (h : Touch full t o (lim.buckets.get? i) false)
    (hb : b.identity = i → o.getD full = b) :
    Touch full t o ((lim.consumeFrom b t).1.buckets.get? i)
      (decide (b.identity = i) && (lim.consumeFrom b t).2.isOk) := by
  have hid : (b.consume t).1.identity = b.identity := by
    simp only [TokenBucket.consume]
    split_ifs <;> rfl
  have hok : (lim.consumeFrom b t).2.isOk = (b.consume t).2 := by
    unfold consumeFrom
    cases hp : (b.consume t).2 <;> simp [hp,Except.isOk,Except.toBool]
  have hg : (lim.consumeFrom b t).1.buckets.get? i =
      if b.identity = i then some (b.consume t).1 else lim.buckets.get? i := by
    simp only [consumeFrom,get?_set,hid]
  rw [hok,hg]
  by_cases hi : b.identity = i
  · have ho := @Touch.consumed full t o
    rw [hb hi] at ho
    simpa [hi] using ho
  · simpa [hi] using h

lemma checkRateLimit_touch : Touch (fullBucket lim i t) t (lim.buckets.get? i)
    ((lim.checkRateLimit j t).1.buckets.get? i)
    (decide (j = i) && (lim.checkRateLimit j t).2.isOk) := by
  cases hb : lim.buckets.get? j with
  | some b =>
    obtain rfl := get?_key hb
    have heq : lim.checkRateLimit b.identity t = lim.consumeFrom b t := by
      rw [checkRateLimit,hb]
    rw [heq]
    refine consumeFrom_touch (.kept _) fun hi => ?_
    rw [← hi,hb,Option.getD_some]
  | none =>
    have heq : lim.checkRateLimit j t =
        if maxRateLimitBuckets ≤ (room lim lim.buckets.rows.length t).buckets.rows.length then
          (room lim lim.buckets.rows.length t, .error (exceeded "Too many tracked identities"))
        else (room lim lim.buckets.rows.length t).consumeFrom (fullBucket lim j t) t := by
      rw [checkRateLimit,hb]
      rfl
    rw [heq]
    split_ifs
    · simpa [Except.isOk,Except.toBool] using room_touch _
    refine consumeFrom_touch (room_touch _) ?_
    rintro rfl
    exact congrArg (Option.getD · _) hb

lemma checkSlowmode_cases (lim : RateLimiter) (j ch : String) (seconds : ℤ) (t : ℚ) :
    (lim.checkSlowmode j ch seconds t = (lim, .ok ()) ∧ seconds ≤ 0) ∨
      ∃ n, (∃ err, lim.checkSlowmode j ch seconds t = (room lim n t, .error err)) ∨
        lim.checkSlowmode j ch seconds t = ({ room lim n t with
          slowmodeLast := (room lim n t).slowmodeLast.set ⟨j ++ ":" ++ ch,t⟩ }, .ok ()) ∧
        seconds ≤ t - (((room lim n t).slowmodeLast.get? (j ++ ":" ++ ch)).map
          SlowmodeEntry.last).getD 0 := by
  unfold checkSlowmode
  by_cases hs : seconds ≤ 0
  · exact .inl ⟨if_pos hs,hs⟩
  have hro : (if maxRateLimitBuckets ≤ lim.slowmodeLast.rows.length then lim.cleanupStale 600 t
      else lim) = room lim lim.slowmodeLast.rows.length t := rfl
  rw [if_neg hs,hro]
  refine .inr ⟨lim.slowmodeLast.rows.length,?_⟩
  dsimp only
  split_ifs with hfull hso
  · exact .inl ⟨_,rfl⟩
  · exact .inl ⟨_,rfl⟩
  · exact .inr ⟨rfl,not_lt.mp hso⟩

lemma step_touch : Touch (fullBucket lim i e.now) e.now (lim.buckets.get? i)
    ((step lim e).buckets.get? i) (decide (e.call = .rate i) && (perform lim e).2.isOk) := by
  unfold step perform
  cases e.call with
  | rate j => simpa using checkRateLimit_touch
  | slowmode j channelId seconds =>
    obtain ⟨heq,-⟩ | ⟨n,⟨err,heq⟩ | ⟨heq,-⟩⟩ :=
      checkSlowmode_cases lim j channelId seconds e.now
    · simpa [heq] using Touch.kept _
    · simpa [heq] using room_touch n
    · simpa [heq] using room_touch n
  | cleanup age => simpa using cleanup_touch age.2

lemma step_fixed (lim : RateLimiter) (e : Event) :
    (step lim e).maxTokens = lim.maxTokens ∧ (step lim e).refillRate = lim.refillRate := by
  simp only [step,perform,checkRateLimit,checkSlowmode, consumeFrom,cleanupStale]
  repeat' split
  all_goals exact ⟨rfl,rfl⟩

/-- The tokens that can be spent at `t`; without a bucket a full one is given. -/
def level (m t : ℚ) : Option TokenBucket → ℚ
  | none => m
  | some b => min b.maxTokens (b.tokens + (t - b.lastRefill) * b.refillRate)

/-- The bucket was made by this limiter and last used by `clock`. -/
def Fair (m r clock : ℚ) (o : Option TokenBucket) : Prop :=
  ∀ b ∈ o, b.maxTokens = m ∧ b.refillRate = r ∧ 0 ≤ b.tokens ∧ b.lastRefill ≤ clock

lemma accepted_after {call : Call} (h : ∀ e ∈ es, t₂ < e.now) : accepted call t₁ t₂ lim es = 0 := by
  induction es generalizing lim with
  | nil => rfl
  | cons e es ih =>
    obtain ⟨hl,hre⟩ := forall_mem_cons.mp h
    rw [accepted,ih hre,if_neg fun hall => hl.not_ge hall.2.2.2]

lemma Fair.mono (h : Fair m r clock o) (ht : clock ≤ t) : Fair m r t o := by
  intro b hb
  obtain ⟨hma,hra,hto,hl⟩ := h b hb
  exact ⟨hma,hra,hto,hl.trans ht⟩

lemma Fair.level_le (h : Fair m r clock o) : level m t o ≤ m := by
  cases o with
  | none => exact le_rfl
  | some b => exact (min_le_left ..).trans_eq (h b rfl).1

section Bounds

variable (hm : 0 ≤ m) (hr : 0 ≤ r)
include hm hr

lemma Fair.level_nonneg (h : Fair m r clock o) : 0 ≤ level m clock o := by
  cases o with
  | none => exact hm
  | some b =>
    obtain ⟨rfl,rfl,ht,hl⟩ := h b rfl
    exact le_min hm (add_nonneg ht (mul_nonneg (sub_nonneg.mpr hl) hr))

lemma Fair.level_grows (h : Fair m r clock o) (ht : clock ≤ t) :
    level m t o ≤ level m clock o + r * (t - clock) := by
  have hg := mul_nonneg hr (sub_nonneg.mpr ht)
  cases o with
  | none => exact le_add_of_nonneg_right hg
  | some b =>
    obtain ⟨rfl,rfl,-,-⟩ := h b rfl
    rw [level,level,min_add]
    refine min_le_min (le_add_of_nonneg_right hg) (le_of_eq ?_)
    ring

/-- An event takes out of the bucket what it lets through. -/
lemma Touch.pays (hfull : m ≤ r * 600) (h : Touch ⟨i,m,m,r,t⟩ t o o' ok)
    (ho : Fair m r clock o) (ht : clock ≤ t) :
    Fair m r t o' ∧ level m t o' + (if ok then 1 else 0) ≤ level m t o := by
  have hl := ho.mono ht
  cases h with
  | kept => exact ⟨hl,by simp⟩
  | @forgotten b hol =>
    -- a bucket that is forgotten had already filled up again
    obtain ⟨rfl,rfl,hto,-⟩ := ho b rfl
    have hre := mul_le_mul_of_nonneg_right hol.le hr
    refine ⟨(fun _ hb => nomatch hb),?_⟩
    simp only [level,Bool.false_eq_true,if_false,add_zero]
    exact le_min le_rfl (by linarith)
  | consumed =>
    have hbu : ∀ b, b.maxTokens = m → b.refillRate = r → 0 ≤ b.tokens → b.lastRefill ≤ t →
        Fair m r t (some (b.consume t).1) ∧
          level m t (some (b.consume t).1) + (if (b.consume t).2 then 1 else 0) ≤
            level m t (some b) := by
      rintro b rfl rfl hto hla
      have hf : Fair b.maxTokens b.refillRate t (some b) := by simp [Fair,hto,hla]
      have hp := hf.level_nonneg hm hr
      rw [level] at hp
      by_cases hon : 1 ≤ min b.maxTokens (b.tokens + (t - b.lastRefill) * b.refillRate)
      · simp only [TokenBucket.consume,if_pos hon]
        simp [Fair,level,le_min_iff.mp hon]
      · simp only [TokenBucket.consume,if_neg hon]
        simp [Fair,level,le_min_iff.mp hp]
    cases o with
    | none => simpa [level] using hbu ⟨i,m,m,r,t⟩ rfl rfl hm le_rfl
    | some b =>
      obtain ⟨h₁,h₂,h₃,h₄⟩ := hl b rfl
      exact hbu b h₁ h₂ h₃ h₄

variable (hfull : m ≤ r * 600)
include hfull

/-- The limiter of these settings, with a fair bucket for `i`. -/
def Sound (i : String) (m r clock : ℚ) (lim : RateLimiter) : Prop :=
  (lim.maxTokens = m ∧ lim.refillRate = r) ∧ Fair m r clock (lim.buckets.get? i)

lemma step_pays (h : Sound i m r clock lim) (ht : clock ≤ e.now) :
    Sound i m r e.now (step lim e) ∧ level m e.now ((step lim e).buckets.get? i) +
      (if decide (e.call = .rate i) && (perform lim e).2.isOk then 1 else 0) ≤
        level m e.now (lim.buckets.get? i) := by
  obtain ⟨⟨rfl,rfl⟩,hf⟩ := h
  have hp := step_touch.pays hm hr hfull hf ht
  exact ⟨⟨step_fixed lim e,hp.1⟩,hp.2⟩

lemma accepted_le_level (h : Sound i m r clock lim) (hl : ∀ e ∈ es, clock ≤ e.now)
    (hes : Timed es) (ht : clock ≤ t₂) :
    accepted (.rate i) t₁ t₂ lim es ≤ level m clock (lim.buckets.get? i) + r * (t₂ - clock) := by
  have hro := add_nonneg (h.2.level_nonneg hm hr) (mul_nonneg hr (sub_nonneg.mpr ht))
  induction es generalizing lim clock with
  | nil => exact hro
  | cons e es ih =>
    obtain ⟨hn,hes'⟩ := pairwise_cons.mp hes
    have hno := hl e mem_cons_self
    by_cases hin : e.now ≤ t₂
    · obtain ⟨hs,hp⟩ := step_pays hm hr hfull h hno
      have hre := ih hs hn hes' hin
        (add_nonneg (hs.2.level_nonneg hm hr) (mul_nonneg hr (sub_nonneg.mpr hin)))
      have hg := h.2.level_grows hm hr hno
      have hc : ((if e.call = .rate i ∧ (perform lim e).2.isOk ∧ t₁ ≤ e.now ∧ e.now ≤ t₂
          then 1 else 0 : ℕ) : ℚ) ≤
          if decide (e.call = .rate i) && (perform lim e).2.isOk then 1 else 0 := by
        split_ifs <;> simp_all
      rw [accepted,Nat.cast_add]
      linarith
    · rw [accepted_after (forall_mem_cons.mpr ⟨not_le.mp hin,fun x hx =>
        (not_le.mp hin).trans_le (hn x hx)⟩)]
      exact_mod_cast hro

lemma accepted_le_of_sound (h : Sound i m r clock lim) (hla : ∀ e ∈ es, clock ≤ e.now)
    (hes : Timed es) (hst : clock ≤ t₁) (ht : t₁ ≤ t₂) :
    accepted (.rate i) t₁ t₂ lim es ≤ m + r * (t₂ - t₁) := by
  induction es generalizing lim clock with
  | nil => exact add_nonneg hm (mul_nonneg hr (sub_nonneg.mpr ht))
  | cons e es ih =>
    obtain ⟨hn,hes'⟩ := pairwise_cons.mp hes
    by_cases hin : t₁ ≤ e.now
    -- the interval starts here, with at most a full bucket
    · have hl : ∀ x ∈ e :: es, t₁ ≤ x.now :=
        forall_mem_cons.mpr ⟨hin,fun x hx => hin.trans (hn x hx)⟩
      have hs : Sound i m r t₁ lim := ⟨h.1,h.2.mono hst⟩
      have hc : (accepted (.rate i) t₁ t₂ lim (e :: es) : ℚ) ≤ _ :=
        accepted_le_level hm hr hfull hs hl hes ht
      linarith [hs.2.level_le (t := t₁)]
    · rw [accepted,if_neg fun hall => hin hall.2.2.1,zero_add]
      exact ih (step_pays hm hr hfull h (hla e mem_cons_self)).1 hn hes' (not_le.mp hin).le

end Bounds

/-- The token-bucket bound, over any interval of any run. -/
theorem accepted_le (hm : 0 ≤ m) (hfull : m ≤ r * 600) (hes : Timed es) (ht : t₁ ≤ t₂)
    (i : String) :
    accepted (.rate i) t₁ t₂ { maxTokens := m, refillRate := r } es ≤ m + r * (t₂ - t₁) := by
  have hr : 0 ≤ r := by linarith
  cases es with
  | nil => exact add_nonneg hm (mul_nonneg hr (sub_nonneg.mpr ht))
  | cons e es =>
    have hs : Sound i m r (min t₁ e.now) { maxTokens := m, refillRate := r } :=
      ⟨⟨rfl,rfl⟩,fun b hb => nomatch hb⟩
    refine accepted_le_of_sound hm hr hfull hs
      (forall_mem_cons.mpr ⟨min_le_right ..,fun x hx => ?_⟩) hes (min_le_left ..) ht
    exact (min_le_right ..).trans (rel_of_pairwise_cons hes hx)

theorem default_accepted_le : Timed [⟨.rate "a",0⟩, ⟨.rate "a",1⟩] ∧
    (accepted (.rate "a") 0 1 {} [⟨.rate "a",0⟩, ⟨.rate "a",1⟩] : ℚ) ≤ 10 + 1 * (1 - 0) :=
  ⟨by decide,accepted_le (by norm_num) (by norm_num) (by decide) (by norm_num) "a"⟩

theorem negative_limit_exceeded :
    ¬ ((accepted (.rate "a") 0 0 { maxTokens := -1, refillRate := 0 } [] : ℚ) ≤
      -1 + 0 * (0 - 0)) := by
  simp [accepted]

/-- A call at `t₀` is still remembered under its key, or ten minutes have gone by. -/
def Kept (key : String) (t₀ clock : ℚ) (lim : RateLimiter) : Prop :=
  (∃ x, lim.slowmodeLast.get? key = some x ∧ t₀ ≤ x.last) ∨ 600 < clock - t₀

section Slowmode

variable {key : String} {t₀ : ℚ}

lemma Kept.cleanup {age : ℚ} (ha : 600 ≤ age) (h : Kept key t₀ t lim) :
    Kept key t₀ t (lim.cleanupStale age t) := by
  rcases h with ⟨x,hx,hle⟩ | h
  · by_cases ho : age < t - x.last
    · exact .inr (by linarith)
    · exact .inl ⟨x,get?_select.trans (by rw [hx,Option.filter_some,decide_eq_false ho]; rfl),hle⟩
  · exact .inr h

lemma Kept.room (h : Kept key t₀ t lim) (n : ℕ) : Kept key t₀ t (room lim n t) := by
  unfold RateBounds.room
  split_ifs
  · exact h.cleanup le_rfl
  · exact h

lemma checkRateLimit_slowmode : ∃ n, (lim.checkRateLimit j t).1.slowmodeLast =
    (room lim n t).slowmodeLast := by
  unfold checkRateLimit
  cases lim.buckets.get? j with
  | some b => exact ⟨0,rfl⟩
  | none =>
    refine ⟨lim.buckets.rows.length,?_⟩
    dsimp only
    split_ifs <;> simp [room,consumeFrom, *]

lemma Kept.step (h : Kept key t₀ clock lim) (hc : clock ≤ e.now) (h₀ : t₀ ≤ e.now) :
    Kept key t₀ e.now (step lim e) := by
  have hno : Kept key t₀ e.now lim := h.imp_right fun hl => by linarith
  unfold RateBounds.step perform
  cases e.call with
  | cleanup age => exact hno.cleanup age.2
  | rate j =>
    obtain ⟨n,hn⟩ := @checkRateLimit_slowmode lim j e.now
    rw [Kept,hn]
    exact hno.room n
  | slowmode j channelId seconds =>
    obtain ⟨heq,-⟩ | ⟨n,⟨err,heq⟩ | ⟨heq,-⟩⟩ :=
      checkSlowmode_cases lim j channelId seconds e.now
    all_goals simp only [heq]
    · exact hno
    · exact hno.room n
    rw [Kept,get?_set]
    by_cases hk : j ++ ":" ++ channelId = key
    · exact .inl ⟨_,if_pos hk,h₀⟩
    · rw [if_neg hk]
      exact hno.room n

lemma Kept.run (h : Kept key t₀ clock lim) (hes : Timed es) (hl : ∀ e ∈ es, clock ≤ e.now)
    (h₀ : t₀ ≤ clock) (he : ∀ e ∈ es, e.now ≤ t) (hc : clock ≤ t) :
    Kept key t₀ t (run RateBounds.step lim es) := by
  induction es generalizing lim clock with
  | nil => exact h.imp_right fun hlo => by linarith
  | cons e es ih =>
    obtain ⟨hn,hes'⟩ := pairwise_cons.mp hes
    have hno := hl e mem_cons_self
    exact ih (h.step hno (h₀.trans hno)) hes' hn (h₀.trans hno)
      (fun x hx => he x (mem_cons_of_mem e hx)) (he e mem_cons_self)

end Slowmode

def post (identityHash channelId : String) (seconds : ℤ) (now : ℚ) : Event :=
  ⟨.slowmode identityHash channelId seconds,now⟩

lemma post_accepted {ch : String} {seconds : ℤ} (hs : 0 < seconds)
    (h : (perform lim (post i ch seconds t)).2.isOk) :
    (step lim (post i ch seconds t)).slowmodeLast.get? (i ++ ":" ++ ch) = some ⟨i ++ ":" ++ ch,t⟩ ∧
      ∃ n, seconds ≤ t - (((room lim n t).slowmodeLast.get? (i ++ ":" ++ ch)).map
        SlowmodeEntry.last).getD 0 := by
  obtain ⟨-,hno⟩ | ⟨n,⟨err,heq⟩ | ⟨heq,hg⟩⟩ := checkSlowmode_cases lim i ch seconds t
  · exact absurd hs hno.not_gt
  · simp [perform,post,heq,Except.isOk,Except.toBool] at h
  · exact ⟨by simp [step,perform,post,heq,get?_set],n,hg⟩

/-- Up to ten minutes, slowmode keeps the calls of an identity in a channel apart. -/
theorem slowmode_spaced {channelId : String} {seconds : ℤ} {mid : List Event} (hs : 0 < seconds)
    (hshort : seconds ≤ 600)
    (htimed : Timed (post i channelId seconds t₁ :: (mid ++ [post i channelId seconds t₂])))
    (h₁ : (perform lim (post i channelId seconds t₁)).2.isOk)
    (h₂ : (perform (run step lim (post i channelId seconds t₁ :: mid))
      (post i channelId seconds t₂)).2.isOk) : seconds ≤ t₂ - t₁ := by
  obtain ⟨ha,hmi⟩ := pairwise_cons.mp htimed
  obtain ⟨hmi,-,hb⟩ := pairwise_append.mp hmi
  have hle : t₁ ≤ t₂ := ha _ (mem_append_right _ (mem_singleton_self _))
  have hk : Kept (i ++ ":" ++ channelId) t₁ t₁ (step lim (post i channelId seconds t₁)) :=
    .inl ⟨_,(post_accepted hs h₁).1,le_rfl⟩
  have hru : Kept _ t₁ t₂ (run step (step lim (post i channelId seconds t₁)) mid) :=
    hk.run hmi (fun x hx => ha x (mem_append_left _ hx)) le_rfl
      (fun x hx => hb x hx _ (mem_singleton_self _)) hle
  obtain ⟨-,n,hg⟩ := post_accepted hs h₂
  rcases hru.room n with ⟨x,hx,hla⟩ | hl
  · rw [run_cons,hx,Option.map_some,Option.getD_some] at hg
    linarith
  · exact (Int.cast_le.mpr hshort).trans hl.le

def hourly (now : ℚ) : Event := ⟨.cleanup ⟨3600,by decide +kernel⟩,now⟩

theorem slowmode_spaced_minute :
    (perform (run step {} [post "a" "hall" 60 100, hourly 130]) (post "a" "hall" 60 160)).2.isOk ∧
      (60 : ℤ) ≤ (160 : ℚ) - 100 :=
  ⟨by decide +kernel,@slowmode_spaced {} "a" 100 160 "hall" 60 [hourly 130] (by decide)
    (by decide) (by decide +kernel) (by decide +kernel) (by decide +kernel)⟩

/-- With two hours of slowmode the hourly cleanup lets the second call through after one. -/
theorem slowmode_forgotten :
    Timed [post "a" "hall" 7200 7200, hourly 10801, post "a" "hall" 7200 10802] ∧
      (perform {} (post "a" "hall" 7200 7200)).2.isOk ∧
      (perform (run step {} [post "a" "hall" 7200 7200, hourly 10801])
        (post "a" "hall" 7200 10802)).2.isOk ∧ ¬ (7200 : ℚ) ≤ 10802 - 7200 := by
  decide +kernel

end Hokora.RateBounds
