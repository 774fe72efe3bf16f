import Hokora.CdspSessions

/-!
# Whose session a request touches

A profile update names its session without a token.
-/
namespace Hokora.SessionPrivacy
open CdspSessions Constants KeyedTable List ReadHandlers

inductive CdspRequest where
  | sessionInit (req : SessionInit) (draw : SessionDraw)
  | profileUpdate (sessionId : Option String) (syncProfile : Option ℤ)

def process (hasCdspManager : Bool) (timeout : ℚ) (s : CdspStore) (requesterHash : Option String)
    (now : ℚ) : CdspRequest → CdspStore × List FlushedItem
  | .sessionInit req draw =>
    match handleCdspSessionInit hasCdspManager timeout s requesterHash req draw now with
    | .ok (s', answer) => (s', answer.items)
    | .error _ => (s, [])
  | .profileUpdate sessionId syncProfile =>
    match handleCdspProfileUpdate hasCdspManager s sessionId syncProfile now with
    | .ok (s', answer) => (s', answer.items)
    | .error _ => (s, [])

def owns (requesterHash : Option String) (x : CdspSession) : Bool :=
  requesterHash = some x.identityHash

def ownsItem (s : CdspStore) (requesterHash : Option String) (i : DeferredSyncItem) : Bool :=
  (s.sessions.get? i.sessionId).any (owns requesterHash)

structure Confined (s : CdspStore) (requesterHash : Option String)
    (out : CdspStore × List FlushedItem) : Prop where
  sessions : (out.1.sessions.rows.filter fun x => !owns requesterHash x) =
    s.sessions.rows.filter fun x => !owns requesterHash x
  items : (out.1.deferred.filter fun i => !ownsItem s requesterHash i) =
    s.deferred.filter fun i => !ownsItem s requesterHash i
  response : ∀ item ∈ out.2, ∃ i ∈ s.deferred, ownsItem s requesterHash i = true ∧
    (item = unwrapDeferredItem i ∨ item = storedItem i)

/-- A valid profile for an active session of somebody else, of which it changes a column. -/
def Intrudes (s : CdspStore) (requesterHash : Option String) (now : ℚ) : CdspRequest → Prop
  | .sessionInit _ _ => False
  | .profileUpdate sessionId syncProfile =>
    ∃ sid profile x, present sessionId = some sid ∧ syncProfile = some profile ∧
      profile ∈ validProfiles ∧ s.sessions.get? sid = some x ∧
      x.state = .active ∧ requesterHash ≠ some x.identityHash ∧
      (x.syncProfile ≠ profile ∨ x.lastActivity ≠ now)

section
variable {s : CdspStore} {rq : Option String}

lemma Confined.refl (s : CdspStore) (rq : Option String) : Confined s rq (s, []) :=
  ⟨rfl,rfl,fun _ h => absurd h not_mem_nil⟩

variable {requester sid : String} {now : ℚ}

lemma rewrite_others {f : CdspSession → CdspSession} (hf : ∀ x, (f x).sessionId = x.sessionId)
    (hh : ∀ x, (f x).identityHash = x.identityHash)
    (ho : ∀ x, s.sessions.get? sid = some x → owns rq x = true) :
    ((s.rewrite sid f hf).sessions.rows.filter fun x => !owns rq x) =
      s.sessions.rows.filter fun x => !owns rq x := by
  refine Table.filter_update hf fun x hx => ?_
  have hx' := ho x hx
  have hfx : owns rq (f x) = true := by
    unfold owns
    rw [hh]
    exact hx'
  rw [hx',hfx]
  exact ⟨rfl,rfl⟩

lemma Confined.flushSession {x : CdspSession} (hx : s.sessions.get? sid = some x)
    (ho : owns rq x = true) (profile : ℤ) (now : ℚ)
    {g : DeferredSyncItem → FlushedItem}
    (hg : ∀ i, g i = unwrapDeferredItem i ∨ g i = storedItem i) :
    Confined s rq ((flushSession s sid profile now).2,
      (flushSession s sid profile now).1.map g) := by
  have hit : ∀ i : DeferredSyncItem, i.sessionId = sid → ownsItem s rq i = true := by
    intro i hi
    rw [ownsItem,hi,hx]
    exact ho
  refine ⟨?_,?_,?_⟩
  · have hto : ∀ y, s.sessions.get? sid = some y → owns rq y = true := by
      intro y hy
      rw [hx] at hy
      cases hy
      exact ho
    have hf := rewrite_others (f := touchProfile profile now) (fun _ => rfl) (fun _ => rfl) hto
    rw [← hf]
    refine rewrite_others
      (s := ((s.rewrite sid (touchProfile profile now) fun _ => rfl).flushForSession sid).2)
      (f := CdspStore.setCount 0) (fun _ => rfl) (fun _ => rfl) fun y hy => ?_
    have ht := get?_rewrite hx (f := touchProfile profile now) fun _ => rfl
    obtain rfl := Option.some.inj (ht.symm.trans hy)
    exact ho
  · simp only [CdspSessions.flushSession,CdspStore.flushForSession,CdspStore.rewrite]
    rw [filter_filter]
    refine filter_congr fun i _ => ?_
    by_cases hi : i.sessionId = sid
    · simp [hit i hi]
    · simp [hi]
  · intro item hm
    obtain ⟨i,hi,rfl⟩ := mem_map.mp hm
    obtain ⟨hd,hs⟩ := mem_filter.mp (mem_flushSession hi)
    exact ⟨i,hd,hit i (of_decide_eq_true hs),hg i⟩

lemma owned_active (hr : present rq = some requester) {x : CdspSession}
    (hx : s.getActiveSession requester = some x) :
    s.sessions.get? x.sessionId = some x ∧ owns rq x = true := by
  obtain ⟨hm,hid,-⟩ := getActiveSession_mem hx
  refine ⟨Table.get?_of_mem hm,?_⟩
  rw [owns,(present_eq_some.mp hr).1,hid]
  exact decide_eq_true rfl

lemma closePrevious_others (hr : present rq = some requester) :
    ((closePrevious s requester now).sessions.rows.filter fun x => !owns rq x) =
      s.sessions.rows.filter fun x => !owns rq x := by
  unfold closePrevious
  split
  · rfl
  next x hx =>
    obtain ⟨hg,ho⟩ := owned_active hr hx
    refine rewrite_others (f := close now) (fun _ => rfl) (fun _ => rfl) fun y hy => ?_
    rw [hg] at hy
    cases hy
    exact ho

lemma sessionInit_confined {timeout : ℚ} {req : SessionInit} {draw : SessionDraw}
    {s' : CdspStore} {answer : SessionAnswer} (hr : present rq = some requester)
    (hok : handleSessionInit timeout s requester req draw now = .ok (s', answer)) :
    Confined s rq (s', answer.items) := by
  rcases handleSessionInit_cases hok with ⟨-,rfl,code,rfl⟩ | ⟨-,x,hre,rfl,rfl⟩ |
    ⟨-,-,sessions,hi,rfl,rfl⟩
  · exact .refl s' rq
  · obtain ⟨hg,ho⟩ := owned_active hr (resumable_active hre)
    exact .flushSession hg ho req.syncProfile now fun i => .inl rfl
  have hn : owns rq (newRow timeout requester req draw now) = true := by
    rw [owns,(present_eq_some.mp hr).1]
    exact decide_eq_true rfl
  refine ⟨?_,?_,fun _ h => absurd h not_mem_nil⟩
  · have hk := Table.filter_insert? (p := fun x => !owns rq x) hi (by rw [hn]; rfl)
    exact hk.trans (closePrevious_others hr)
  · simp [closePrevious_deferred]

lemma profileUpdate_row {profile : ℤ} {y : CdspSession} (hs : Switches s sid profile)
    (hy : (handleProfileUpdate s sid profile now).1.sessions.get? sid = some y) :
    y.syncProfile = profile ∧ y.lastActivity = now := by
  obtain ⟨-,x,hx,-⟩ := id hs
  rcases handleProfileUpdate_cases with
    ⟨hno,-⟩ | ⟨-,⟨-,hr⟩ | ⟨count,hr⟩⟩
  · exact absurd hs hno
  · rw [hr] at hy
    obtain rfl := Option.some.inj ((flushSession_row hx).symm.trans hy)
    exact ⟨rfl,rfl⟩
  rw [hr] at hy
  have ht := get?_rewrite hx (f := touchProfile profile now) fun _ => rfl
  obtain rfl := Option.some.inj (ht.symm.trans hy)
  exact ⟨rfl,rfl⟩

lemma profileUpdate_confined {profile : ℤ}
    (h : ∀ x, profile ∈ validProfiles → s.sessions.get? sid = some x →
      x.state = .active → owns rq x = true ∨ x.syncProfile = profile ∧ x.lastActivity = now) :
    Confined s rq ((handleProfileUpdate s sid profile now).1,
      (handleProfileUpdate s sid profile now).2.items) := by
  rcases handleProfileUpdate_cases with
    ⟨-,code,hr⟩ | ⟨⟨hv,x,hx,ha⟩,⟨⟨y,hy,hl⟩,hr⟩ | ⟨count,hr⟩⟩
  · rw [hr]
    exact .refl s rq
  · rw [hr]
    rw [hx] at hy
    cases hy
    rcases h x hv hx ha with ho | ⟨hs,-⟩
    · exact .flushSession hx ho profile now fun i => .inr rfl
    · rw [hs] at hl
      exact absurd hl (lt_irrefl _)
  rw [hr]
  rcases h x hv hx ha with ho | ⟨hp,hn⟩
  · refine ⟨?_,rfl,fun _ h => absurd h not_mem_nil⟩
    refine rewrite_others (f := touchProfile profile now) (fun _ => rfl) (fun _ => rfl)
      fun y hy => ?_
    rw [hx] at hy
    cases hy
    exact ho
  -- Nothing is written to the foreign row.
  have hf : (s.rewrite sid (touchProfile profile now) fun _ => rfl) = s := by
    refine rewrite_fixed (f := touchProfile profile now) (fun _ => rfl) fun y hy => ?_
    rw [hx] at hy
    cases hy
    rw [touchProfile,← hp,← hn]
  rw [hf]
  exact .refl s rq

/-- A request changes sessions and queues of its requester alone, and shows them to nobody else,
exactly where it is not an update of an active session of another identity. -/
theorem process_confined_iff (hasCdspManager : Bool) (timeout : ℚ) (s : CdspStore)
    (requesterHash : Option String) (now : ℚ) (req : CdspRequest) :
    Confined s requesterHash (process hasCdspManager timeout s requesterHash now req) ↔
      ¬ (hasCdspManager = true ∧ Intrudes s requesterHash now req) := by
  cases hasCdspManager with
  | false =>
    have hre := Confined.refl s requesterHash
    refine iff_of_true ?_ fun h => nomatch h.1
    cases req <;> exact hre
  | true =>
    rw [and_iff_right rfl]
    cases req with
    | sessionInit req draw =>
      refine iff_of_true ?_ not_false
      simp only [process,handleCdspSessionInit,Bool.true_eq_false,if_false]
      cases hr : present requesterHash with
      | none => exact .refl s requesterHash
      | some requester =>
        split
        next s' answer hok => exact sessionInit_confined hr hok
        · exact .refl s requesterHash
    | profileUpdate sessionId sp =>
      cases hs : present sessionId with
      | none =>
        simp only [process,handleCdspProfileUpdate,hs,Bool.true_eq_false,if_false]
        refine iff_of_true (.refl s requesterHash) ?_
        rintro ⟨sid,-,-,h,-⟩
        rw [hs] at h
        cases h
      | some sid =>
        cases sp with
        | none =>
          simp only [process,handleCdspProfileUpdate,hs,Bool.true_eq_false,if_false]
          refine iff_of_true (.refl s requesterHash) ?_
          rintro ⟨-,profile,-,-,h,-⟩
          cases h
        | some profile =>
          simp only [process,handleCdspProfileUpdate,hs,Bool.true_eq_false,if_false]
          constructor
          · rintro hc ⟨sid',profile',x,h,hp,hv,hx,ha,ho,hch⟩
            rw [hs] at h
            cases h
            cases hp
            -- The foreign row would still be there.
            have hf : owns requesterHash x = false := decide_eq_false ho
            have hm : x ∈ s.sessions.rows.filter fun x => !owns requesterHash x :=
              mem_filter.mpr ⟨Table.get?_mem hx,by rw [hf]; rfl⟩
            rw [← hc.sessions] at hm
            have haf := Table.get?_of_mem (mem_filter.mp hm).1
            rw [Table.get?_key hx] at haf
            obtain ⟨hpr,hn⟩ := profileUpdate_row ⟨hv,x,hx,ha⟩ haf
            rcases hch with h | h
            · exact h hpr
            · exact h hn
          · intro hno
            refine profileUpdate_confined fun x hv hx ha => ?_
            by_contra hco
            push Not at hco
            refine hno ⟨sid,profile,x,hs,rfl,hv,hx,ha,?_,?_⟩
            · intro he
              exact absurd (decide_eq_true he) hco.1
            by_cases hp : x.syncProfile = profile
            · exact .inr (hco.2 hp)
            · exact .inl hp

end

def bobSession : CdspSession :=
  { sessionId := "b0b", identityHash := "bob", syncProfile := cdspProfileMinimal,
    resumeToken := some [1], lastActivity := 5, expiresAt := none, deferredCount := 1 }

def bobStore : CdspStore where
  sessions := .singleton bobSession
  deferred :=
    [{ id := 1, sessionId := "b0b", channelId := some "board", syncAction := 7,
       payload := .request (.dict [("query", .str "salary")]), createdAt := 6,
       expiresAt := none }]

theorem mallory_reads_queue :
    let out := process true 3600 bobStore (some "mallory") 9
      (.profileUpdate (some "b0b") (some cdspProfileFull))
    ¬ Confined bobStore (some "mallory") out ∧ out.2.length = 1 ∧ out.1.deferred.length = 0 := by
  refine ⟨fun h => ?_,by decide +kernel,by decide +kernel⟩
  exact absurd h.sessions (by decide +kernel)

end Hokora.SessionPrivacy
