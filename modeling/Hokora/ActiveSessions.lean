import Hokora.DeferredOrder

/-!
# One active session for each identity

Runs of session requests and of the storage tasks of live events. Two overlapping session inits are
not covered.
-/
namespace Hokora.ActiveSessions
open CdspSessions DeferredOrder KeyedTable List TransitionRuns

def Sole (s : CdspStore) : Prop :=
  ∀ x ∈ s.sessions.rows, ∀ y ∈ s.sessions.rows, x.state = .active → y.state = .active →
    x.identityHash = y.identityHash → x = y

variable {s s' : CdspStore} {f : CdspSession → CdspSession} {sid i : String} {x : CdspSession}
  {now timeout : ℚ} {req : SessionInit} {draw : SessionDraw} {answer : SessionAnswer}

lemma Sole.of_sessions (h : Sole s) (he : s'.sessions = s.sessions) : Sole s' := by
  unfold Sole
  rw [he]
  exact h

lemma Sole.rewrite (h : Sole s) {hf : ∀ x, (f x).sessionId = x.sessionId}
    (hi : ∀ x, (f x).identityHash = x.identityHash)
    (ha : ∀ x, (f x).state = .active → x.state = .active) : Sole (s.rewrite sid f hf) := by
  have hid : ∀ w, (if w.sessionId = sid then f w else w).identityHash = w.identityHash := by
    intro w
    split_ifs
    · exact hi w
    · rfl
  have hst : ∀ w, (if w.sessionId = sid then f w else w).state = .active → w.state = .active := by
    intro w
    split_ifs
    · exact ha w
    · exact id
  intro x hx y hy hxa hya he
  obtain ⟨u,hu,rfl⟩ := mem_map.mp hx
  obtain ⟨v,hv,rfl⟩ := mem_map.mp hy
  rw [hid,hid] at he
  rw [h u hu v hv (hst u hxa) (hst v hya) he]

lemma Sole.flushSession (h : Sole s) {profile : ℤ} : Sole (flushSession s sid profile now).2 := by
  have ht : Sole (s.rewrite sid (touchProfile profile now) fun _ => rfl) :=
    h.rewrite (fun _ => rfl) fun _ => id
  refine .rewrite ?_ (fun _ => rfl) fun _ => id
  exact ht

lemma exists_active (hx : x ∈ s.sessions.rows) (ha : x.state = .active) :
    ∃ y, s.getActiveSession x.identityHash = some y := by
  refine Option.ne_none_iff_exists'.mp fun hn => ?_
  have hm : x ∈ (s.sessions.rows.filter fun y =>
      y.identityHash = x.identityHash && decide (y.state = .active)).insertionSort
        fun a b => b.lastActivity ≤ a.lastActivity :=
    (mem_insertionSort _).mpr (mem_filter.mpr ⟨hx,by simp [ha]⟩)
  rw [List.head?_eq_none_iff.mp hn] at hm
  exact not_mem_nil hm

lemma Sole.closePrevious (h : Sole s) : Sole (closePrevious s i now) ∧
    ∀ y ∈ (closePrevious s i now).sessions.rows, y.identityHash = i → y.state ≠ .active := by
  unfold CdspSessions.closePrevious
  cases hg : s.getActiveSession i with
  | none =>
    refine ⟨h,fun y hy hi ha => ?_⟩
    obtain ⟨z,hz⟩ := exists_active hy ha
    rw [hi,hg] at hz
    cases hz
  | some e =>
    refine ⟨h.rewrite (fun _ => rfl) nofun,fun y hy hi ha => ?_⟩
    -- The row that was closed is the only one, by `h`.
    obtain ⟨w,hw,rfl⟩ := mem_map.mp hy
    obtain ⟨hem,hei,hea⟩ := getActiveSession_mem hg
    split_ifs at hi ha with hs
    · cases ha
    · exact hs (congrArg _ (h w hw e hem ha hea (hi.trans hei.symm)))

lemma Sole.init (h : Sole s)
    (hok : handleSessionInit timeout s i req draw now = .ok (s', answer)) : Sole s' := by
  rcases handleSessionInit_cases hok with ⟨-,rfl,-⟩ | ⟨-,x,-,rfl,-⟩ | ⟨-,-,sessions,hi,rfl,-⟩
  · exact h
  · exact h.flushSession
  obtain ⟨hc,hn⟩ := @Sole.closePrevious s i now h
  intro x hx y hy hxa hya he
  rw [Table.insert?_rows hi,mem_append,mem_singleton] at hx hy
  rcases hx with hx | rfl <;> rcases hy with hy | rfl
  · exact hc x hx y hy hxa hya he
  · exact absurd hxa (hn x hx he)
  · exact absurd hya (hn y hy he.symm)
  · rfl

lemma Sole.apply (h : Sole s) (limit : ℕ) (op : StoreOp) : Sole (op.apply limit timeout s) := by
  cases op with
  | sessionInit i req draw now =>
    simp only [StoreOp.apply]
    split
    next hok => exact h.init hok
    · exact h
  | profileUpdate sid np now =>
    simp only [StoreOp.apply]
    rcases handleProfileUpdate_cases with ⟨-,code,hr⟩ | ⟨-,⟨-,hr⟩ | ⟨count,hr⟩⟩ <;> rw [hr]
    · exact h
    · exact h.flushSession
    · exact h.rewrite (fun _ => rfl) fun _ => id
  | deferRequest i ch action p now =>
    simp only [StoreOp.apply,CdspStore.deferSyncItem]
    split
    · exact h
    next sess _ =>
      have hq : Sole (s.enqueueBounded limit sess ch action (.request p) now) := by
        refine h.of_sessions ?_
        unfold CdspStore.enqueueBounded CdspStore.enqueue
        split_ifs
        · exact evictOldest_sessions.1
        · rfl
      exact hq.rewrite (fun _ => rfl) fun _ => id
  | cleanup maxAge now =>
    exact fun x hx y hy => h x (mem_of_mem_filter hx) y (mem_of_mem_filter hy)

lemma Sole.step {n : Node} (h : Sole n.store) (limit : ℕ) (l : Label) :
    Sole (step limit timeout i n l).store := by
  cases l with
  | hook | fail => exact h
  | other op => exact h.apply limit op
  | advance k now =>
    simp only [DeferredOrder.step,DeferredOrder.advance]
    split
    · exact h
    split
    · split <;> exact h
    · exact h
    refine h.of_sessions ?_
    simp only [storeEvent,CdspStore.enqueue]
    split_ifs
    · rfl
    · exact evictOldest_sessions.1
    · rfl

/-- The row is the active session of the identity. -/
def IsSession (s : CdspStore) (identityHash sessionId : String) (x : CdspSession) : Prop :=
  x ∈ s.sessions.rows ∧ x.sessionId = sessionId ∧ x.identityHash = identityHash ∧ x.state = .active

def NamesActive (s s' : CdspStore) (identityHash : String) (req : SessionInit) :
    SessionAnswer → Prop
  | .rejected _ => s' = s
  | .resumed sessionId _ _ =>
    (∃ x, IsSession s identityHash sessionId x ∧ x.resumeToken = req.resumeToken) ∧
      ∃ x, IsSession s' identityHash sessionId x
  | .opened sessionId _ token =>
    ∃ x, IsSession s' identityHash sessionId x ∧ x.resumeToken = some token

/-- After every run an identity has at most one active session, and what the daemon answers to a
client names the one it has then. -/
theorem one_active_session (limit : ℕ) (timeout : ℚ) (watched : String) (ls : List Label) :
    let s := (run (step limit timeout watched) { store := {} } ls).store
    Sole s ∧ ∀ identityHash req draw now s' answer,
      handleSessionInit timeout s identityHash req draw now = .ok (s', answer) →
        Sole s' ∧ NamesActive s s' identityHash req answer := by
  intro s
  have hs : Sole s := run_invariant (I := fun n : Node => Sole n.store)
    (fun _ l h => h.step limit l) (fun _ hx => absurd hx not_mem_nil) ls
  refine ⟨hs,fun i req draw now s' answer hok => ⟨hs.init hok,?_⟩⟩
  rcases handleSessionInit_cases hok with ⟨-,rfl,code,rfl⟩ | ⟨-,x,hr,rfl,rfl⟩ |
    ⟨-,-,sessions,hi,rfl,rfl⟩
  · rfl
  · obtain ⟨hx,hid,ha⟩ := getActiveSession_mem (resumable_active hr)
    refine ⟨⟨x,⟨hx,rfl,hid,ha⟩,?_⟩,_,
      Table.get?_mem (flushSession_row (Table.get?_of_mem hx)),rfl,hid,ha⟩
    unfold resumable at hr
    split at hr
    next hq => rw [hq,of_decide_eq_true (Option.filter_eq_some_iff.mp hr).2]
    · cases hr
  · refine ⟨newRow timeout i req draw now,⟨?_,rfl,rfl,rfl⟩,rfl⟩
    rw [Table.insert?_rows hi]
    exact mem_append_right _ (mem_singleton_self _)

end Hokora.ActiveSessions
