import Hokora.Invites

/-!
# The use limit of an invite

Requests cut at the lock, the load, the flush and the commit, in any interleaving.
-/
namespace Hokora.InviteUses
open Invites KeyedTable Memberships Repositories TransitionRuns

structure Request where
  rawToken : String
  identityHash : String

inductive Phase where
  | waiting
  | locked (req : Request)
  | admitted (req : Request)
  | loaded (req : Request) (invite : Invite)
  | returned
  | ended

def Phase.inside : Phase → Bool
  | .locked _ | .admitted _ | .loaded _ _ => true
  | _ => false

def Phase.wants (sha256Hex : String → String) : Phase → Option String
  | .admitted req => some (sha256Hex (bareToken req.rawToken))
  | _ => none

structure Writer where
  task : ℕ
  tokenHash : String
  view : InviteStore

structure Node where
  committed : InviteStore
  manager : InviteManager := {}
  lock : Option ℕ := none
  writer : Option Writer := none
  tasks : ℕ → Phase := fun _ => .waiting
  redemptions : List String := []

inductive Label where
  | acquire (i : ℕ) (req : Request)
  | gate (i : ℕ) (now : ℚ)
  | load (i : ℕ) (now : ℚ)
  | flush (i : ℕ) (now : ℚ)
  | commit (i : ℕ)
  | rollback (i : ℕ)

def Node.goto (s : Node) (i : ℕ) (phase : Phase) : Node :=
  { s with tasks := Function.update s.tasks i phase }

def Node.fail (s : Node) (i : ℕ) : Node :=
  { s with
    lock := s.lock.filter fun j => j ≠ i
    writer := s.writer.filter fun w => w.task ≠ i
    tasks := Function.update s.tasks i .ended }

lemma goto_tasks_self (s : Node) (i : ℕ) (phase : Phase) : (s.goto i phase).tasks i = phase :=
  Function.update_self ..

variable {phase : Phase} {st : InviteStore}

lemma goto_tasks_ne {s : Node} {i j : ℕ} (h : j ≠ i) :
    (s.goto i phase).tasks j = s.tasks j := Function.update_of_ne h ..

lemma fail_tasks_self (s : Node) (i : ℕ) : (s.fail i).tasks i = .ended :=
  Function.update_self ..

lemma fail_tasks_ne {s : Node} {i j : ℕ} (h : j ≠ i) : (s.fail i).tasks j = s.tasks j :=
  Function.update_of_ne h ..

def Node.gate (s : Node) (i : ℕ) (req : Request) (now : ℚ) : Node :=
  match Ban.checkNotBlocked s.committed.db.store req.identityHash,
      s.manager.checkRedeemBlock req.identityHash now with
  | .ok (), .ok () =>
    match s.manager.checkRateLimit req.identityHash now with
    | (manager, .ok ()) => { s with manager := manager }.goto i (.admitted req)
    | (manager, .error _) => { s with manager := manager }.fail i
  | _, _ => s.fail i

def Node.load (sha256Hex : String → String) (s : Node) (i : ℕ) (req : Request) (now : ℚ) : Node :=
  let refused := { s with manager := s.manager.recordFailure req.identityHash now }.fail i
  match s.committed.invites.get? (sha256Hex (bareToken req.rawToken)) with
  | none => refused
  | some invite =>
    match refusal now invite with
    | some _ => refused
    | none => s.goto i (.loaded req (redeemed req.identityHash now invite))

def writeUses (invite row : Invite) : Invite :=
  { row with uses := invite.uses, usedBy := invite.usedBy, usedAt := invite.usedAt }

lemma writeUses_tokenHash {invite : Invite} (row : Invite) :
    (writeUses invite row).tokenHash = row.tokenHash := rfl

def Node.flush (s : Node) (i : ℕ) (req : Request) (invite : Invite) (now : ℚ) : Node :=
  match assignMember (touch s.committed.db.store req.identityHash now) req.identityHash
      invite.channelId with
  | .error _ => s.fail i
  | .ok st =>
    let view : InviteStore :=
      { db := { s.committed.db with store := st }
        invites := s.committed.invites.update invite.tokenHash (writeUses invite)
          writeUses_tokenHash }
    { s with lock := none, writer := some ⟨i,invite.tokenHash,view⟩ }.goto i .returned

def Node.publish (s : Node) (w : Writer) : Node :=
  { s with
    committed := w.view
    writer := none
    redemptions := s.redemptions ++ [w.tokenHash] }

def step (sha256Hex : String → String) (s : Node) : Label → Node
  | .acquire i req =>
    match s.tasks i, s.lock with
    | .waiting, none => { s with lock := some i }.goto i (.locked req)
    | _, _ => s
  | .gate i now =>
    match s.tasks i with
    | .locked req => s.gate i req now
    | _ => s
  | .load i now =>
    match s.tasks i with
    | .admitted req => s.load sha256Hex i req now
    | _ => s
  | .flush i now =>
    match s.tasks i, s.writer with
    | .loaded req invite, none => s.flush i req invite now
    | _, _ => s
  | .commit i =>
    match s.writer with
    | none => s
    | some w =>
      if w.task = i then (s.publish w).goto i .ended else s
  | .rollback i => s.fail i

def start (committed : InviteStore) (manager : InviteManager) : Node :=
  { committed := committed, manager := manager }

/-- An invite is loaded only while no session has an uncommitted redemption of it. -/
def Undisturbed (sha256Hex : String → String) (s : Node) : Label → Prop
  | .load i _ => ∀ tokenHash ∈ (s.tasks i).wants sha256Hex, ∀ w ∈ s.writer, w.tokenHash ≠ tokenHash
  | _ => True

instance (sha256Hex : String → String) (s : Node) :
    (l : Label) → Decidable (Undisturbed sha256Hex s l)
  | .load _ _ => inferInstanceAs (Decidable (∀ tokenHash ∈ _, ∀ w ∈ _, _))
  | .acquire _ _ | .gate _ _ | .flush _ _ | .commit _ | .rollback _ => isTrue trivial

variable {sha256Hex : String → String} {s : Node} {i : ℕ}

def steps (i : ℕ) (req : Request) (now : ℚ) : List Label :=
  [.acquire i req, .gate i now, .load i now, .flush i now, .commit i]

variable {invite : Invite} {req : Request} {now : ℚ}

lemma update_redeemed (h : st.invites.get? invite.tokenHash = some invite) (i : String) (now : ℚ) :
    st.invites.update invite.tokenHash (writeUses (redeemed i now invite)) writeUses_tokenHash =
      st.invites.update invite.tokenHash (redeemed i now) fun _ => rfl := by
  apply Table.update_congr
  intro row hr
  obtain rfl := Option.some.inj (hr.symm.trans h)
  rfl

variable (sha256Hex) in
lemma run_ended (h : s.tasks i = .ended) (hw : s.writer = none) (now : ℚ) :
    run (step sha256Hex) s [.load i now, .flush i now, .commit i] = s ∧
      run (step sha256Hex) s [.flush i now, .commit i] = s ∧
      run (step sha256Hex) s [.commit i] = s := by
  simp only [run_cons,run_nil,step,h,hw,and_self]

lemma fail_writer (h : s.writer = none) (i : ℕ) : (s.fail i).writer = none := by
  simp [Node.fail,h]

/-- The node is as after a call of `redeem_invite` whose session commits if the call returns. -/
def Agrees (s t : Node) (call : InviteManager × Except RedeemError (Invite × InviteStore)) : Prop :=
  t.manager = call.1 ∧ t.committed = match call.2 with
      | .ok (_, st) => st
      | .error _ => s.committed

lemma Agrees.of_committed {s' t : Node}
    {call : InviteManager × Except RedeemError (Invite × InviteStore)} (h : Agrees s' t call)
    (hc : s'.committed = s.committed) : Agrees s t call := by
  unfold Agrees at h ⊢
  rw [← hc]
  exact h

lemma flush_alone (hg : s.committed.invites.get? invite.tokenHash = some invite)
    (ht : s.tasks i = .loaded req (redeemed req.identityHash now invite)) (hw : s.writer = none) :
    Agrees s (run (step sha256Hex) s [.flush i now, .commit i])
      (s.manager, acceptInvite s.committed invite req.identityHash now) := by
  have hf : step sha256Hex s (.flush i now) =
      s.flush i req (redeemed req.identityHash now invite) now := by
    simp only [step,ht,hw]
  rw [run_cons,hf]
  unfold Node.flush acceptInvite
  have hc : (redeemed req.identityHash now invite).channelId = invite.channelId := rfl
  rw [hc]
  cases assignMember (touch s.committed.db.store req.identityHash now) req.identityHash
      invite.channelId with
  | error e =>
    have he := (run_ended sha256Hex (fail_tasks_self s i) (fail_writer hw i) now)
    simp only [he.2.2]
    exact ⟨rfl,rfl⟩
  | ok st =>
    have hr := update_redeemed hg req.identityHash now
    simp only [run_cons,run_nil,step,Node.goto,Node.publish,if_true]
    refine ⟨rfl,?_⟩
    exact congrArg (InviteStore.mk _) hr

variable (sha256Hex) in
lemma load_alone (htask : s.tasks i = .admitted req) (hw : s.writer = none) (now : ℚ) :
    Agrees s (run (step sha256Hex) s [.load i now, .flush i now, .commit i])
      (s.manager.redeemToken sha256Hex s.committed req.rawToken req.identityHash now) := by
  have hload : step sha256Hex s (.load i now) = s.load sha256Hex i req now := by
    simp only [step,htask]
  have hrefused := (run_ended sha256Hex
    (fail_tasks_self { s with manager := s.manager.recordFailure req.identityHash now } i)
    (fail_writer hw i) now).2.1
  rw [run_cons,hload]
  unfold InviteManager.redeemToken Node.load
  cases hget : s.committed.invites.get? (sha256Hex (bareToken req.rawToken)) with
  | none =>
    simp only [hrefused]
    exact ⟨rfl,rfl⟩
  | some invite =>
    cases haccept : refusal now invite with
    | some text =>
      simp only [haccept,hrefused]
      exact ⟨rfl,rfl⟩
    | none =>
      simp only [haccept]
      have hkey := Table.get?_key hget
      exact flush_alone (s := s.goto i _) (hkey.symm ▸ hget) (goto_tasks_self s i _) hw

variable (sha256Hex) in
lemma gate_alone (htask : s.tasks i = .locked req) (hw : s.writer = none) (now : ℚ) :
    Agrees s (run (step sha256Hex) s [.gate i now, .load i now, .flush i now, .commit i])
      (s.manager.redeemInvite sha256Hex s.committed req.rawToken req.identityHash now) := by
  have hgate : step sha256Hex s (.gate i now) = s.gate i req now := by
    simp only [step,htask]
  have hfailed := (run_ended sha256Hex (fail_tasks_self s i) (fail_writer hw i) now).1
  rw [run_cons,hgate]
  unfold InviteManager.redeemInvite Node.gate
  cases Ban.checkNotBlocked s.committed.db.store req.identityHash with
  | error e =>
    simp only [hfailed]
    exact ⟨rfl,rfl⟩
  | ok u =>
    cases s.manager.checkRedeemBlock req.identityHash now with
    | error e =>
      simp only [hfailed]
      exact ⟨rfl,rfl⟩
    | ok u =>
      rcases s.manager.checkRateLimit req.identityHash now with ⟨manager,allowed⟩
      cases allowed with
      | error e =>
        have hlimited := (run_ended sha256Hex
          (fail_tasks_self { s with manager := manager } i) (fail_writer hw i) now).1
        simp only [hlimited]
        exact ⟨rfl,rfl⟩
      | ok u =>
        have hload := load_alone sha256Hex
          (goto_tasks_self { s with manager := manager } i (.admitted req)) hw now
        exact hload.of_committed rfl

/-- A redemption that no other task interrupts takes the steps of `redeemInvite`. -/
theorem redeem_alone (hwa : s.tasks i = .waiting) (hl : s.lock = none) (hw : s.writer = none) :
    Agrees s (run (step sha256Hex) s (steps i req now))
      (s.manager.redeemInvite sha256Hex s.committed req.rawToken req.identityHash now) := by
  have ha : step sha256Hex s (.acquire i req) = { s with lock := some i }.goto i (.locked req) := by
    simp [step,hwa,hl]
  rw [steps,run_cons,ha]
  have hg := gate_alone sha256Hex (goto_tasks_self { s with lock := some i } i (.locked req)) hw now
  exact hg.of_committed rfl

def usesOf (st : InviteStore) (tokenHash : String) : Option (ℤ × ℤ) :=
  (st.invites.get? tokenHash).map fun invite => (invite.maxUses, invite.uses)

def Node.count (s : Node) (tokenHash : String) : ℕ := s.redemptions.count tokenHash

structure Counted (tokenHash : String) (maxUses first : ℤ) (s : Node) : Prop where
  inside : ∀ i, (s.tasks i).inside → s.lock = some i
  row : usesOf s.committed tokenHash = some (maxUses, first + s.count tokenHash)
  bound : s.count tokenHash = 0 ∨ first + s.count tokenHash ≤ maxUses
  loaded : ∀ i req invite, s.tasks i = .loaded req invite → invite.tokenHash = tokenHash →
    invite.uses = first + s.count tokenHash + 1 ∧ invite.uses ≤ maxUses ∧
      ∀ w, s.writer = some w → w.tokenHash ≠ tokenHash
  own : ∀ w, s.writer = some w → w.tokenHash = tokenHash →
    usesOf w.view tokenHash = some (maxUses, first + s.count tokenHash + 1) ∧
      first + s.count tokenHash + 1 ≤ maxUses
  other : ∀ w, s.writer = some w → w.tokenHash ≠ tokenHash →
    usesOf w.view tokenHash = usesOf s.committed tokenHash

variable {tokenHash : String} {maxUses first : ℤ}

lemma Counted.manager (h : Counted tokenHash maxUses first s) (manager : InviteManager) :
    Counted tokenHash maxUses first { s with manager := manager } :=
  ⟨h.inside,h.row,h.bound,h.loaded,h.own,h.other⟩

lemma Counted.fail (h : Counted tokenHash maxUses first s) (i : ℕ) :
    Counted tokenHash maxUses first (s.fail i) where
  inside := by
    intro j hj
    rcases eq_or_ne j i with rfl | hne
    · rw [fail_tasks_self] at hj
      cases hj
    · rw [fail_tasks_ne hne] at hj
      rw [Node.fail,h.inside j hj,Option.filter_some,if_pos (by simpa using hne)]
  row := h.row
  bound := h.bound
  loaded := by
    intro j req invite hj hh
    rcases eq_or_ne j i with rfl | hne
    · rw [fail_tasks_self] at hj
      cases hj
    rw [fail_tasks_ne hne] at hj
    obtain ⟨hu,hle,ho⟩ := h.loaded j req invite hj hh
    exact ⟨hu,hle,fun w hw => ho w (Option.mem_filter_iff.mp hw).1⟩
  own := fun w hw => h.own w (Option.mem_filter_iff.mp hw).1
  other := fun w hw => h.other w (Option.mem_filter_iff.mp hw).1

lemma Counted.goto (h : Counted tokenHash maxUses first s) (hlo : phase.inside → s.lock = some i)
    (hl : ∀ req invite, phase = .loaded req invite → invite.tokenHash = tokenHash →
    invite.uses = first + s.count tokenHash + 1 ∧ invite.uses ≤ maxUses ∧
    ∀ w, s.writer = some w → w.tokenHash ≠ tokenHash) :
    Counted tokenHash maxUses first (s.goto i phase) where
  inside := by
    intro j hj
    rcases eq_or_ne j i with rfl | hne
    · rw [goto_tasks_self] at hj
      exact hlo hj
    · rw [goto_tasks_ne hne] at hj
      exact h.inside j hj
  row := h.row
  bound := h.bound
  loaded := by
    intro j req invite hj
    rcases eq_or_ne j i with rfl | hne
    · rw [goto_tasks_self] at hj
      exact hl req invite hj
    · rw [goto_tasks_ne hne] at hj
      exact h.loaded j req invite hj
  own := h.own
  other := h.other

lemma Counted.gate (h : Counted tokenHash maxUses first s) (ht : s.tasks i = .locked req) :
    Counted tokenHash maxUses first (s.gate i req now) := by
  have hl : s.lock = some i := h.inside i (by rw [ht]; rfl)
  unfold Node.gate
  split
  · split
    next manager _ =>
      exact (h.manager manager).goto (fun _ => hl) fun _ _ e => nomatch e
    next manager _ _ => exact (h.manager manager).fail i
  · exact h.fail i

lemma uses_of_accepted (h : refusal now invite = none) (hm : 0 < invite.maxUses) :
    invite.uses < invite.maxUses := by
  unfold refusal at h
  split_ifs at h with _ _ hf
  by_contra hle
  exact hf (by simpa [hm] using hle)

lemma Counted.load (h : Counted tokenHash maxUses first s) (hm : 0 < maxUses)
    (ht : s.tasks i = .admitted req)
    (hok : ∀ w ∈ s.writer, w.tokenHash ≠ sha256Hex (bareToken req.rawToken)) :
    Counted tokenHash maxUses first (s.load sha256Hex i req now) := by
  have hlo : s.lock = some i := h.inside i (by rw [ht]; rfl)
  have hr := (h.manager (s.manager.recordFailure req.identityHash now)).fail i
  unfold Node.load
  split
  · exact hr
  next invite hg =>
    split
    · exact hr
    next ha =>
      refine h.goto (fun _ => hlo) ?_
      intro req' invite' he hh
      obtain ⟨rfl,rfl⟩ := Phase.loaded.inj he
      have hk : sha256Hex (bareToken req.rawToken) = tokenHash :=
        (Table.get?_key hg).symm.trans hh
      -- the row that was read is the committed one, and it counts the redemptions
      have hro := h.row
      rw [hk] at hg hok
      rw [usesOf,hg,Option.map_some,Option.some.injEq,Prod.mk.injEq] at hro
      obtain ⟨hl,hu⟩ := hro
      have hle := uses_of_accepted ha (hl ▸ hm)
      refine ⟨?_,?_,hok⟩
      · simp [redeemed,hu]
      · simp only [redeemed]
        omega

lemma usesOf_write {db : GroupKeys.KeyStore} :
    usesOf ⟨db,st.invites.update invite.tokenHash (writeUses invite)
        writeUses_tokenHash⟩ tokenHash =
      if tokenHash = invite.tokenHash then
        (usesOf st tokenHash).map fun limits => (limits.1, invite.uses)
      else usesOf st tokenHash := by
  unfold usesOf
  rw [Table.get?_update]
  split_ifs
  · rw [Option.map_map,Option.map_map]
    rfl
  · rfl

lemma Counted.flush (h : Counted tokenHash maxUses first s) (ht : s.tasks i = .loaded req invite) :
    Counted tokenHash maxUses first (s.flush i req invite now) := by
  have hl : s.lock = some i := h.inside i (by rw [ht]; rfl)
  unfold Node.flush
  split
  · exact h.fail i
  next st _ =>
    -- nobody else is inside, so nobody else has an invite in memory
    have ho : ∀ j, j ≠ i → (s.tasks j).inside = false := by
      intro j hne
      by_contra hin
      have := h.inside j (by simpa using hin)
      exact hne (Option.some.inj (this.symm.trans hl))
    constructor
    · intro j hj
      rcases eq_or_ne j i with rfl | hne
      · rw [goto_tasks_self] at hj
        cases hj
      rw [goto_tasks_ne hne] at hj
      rw [ho j hne] at hj
      cases hj
    · exact h.row
    · exact h.bound
    · intro j req' invite' hj
      rcases eq_or_ne j i with rfl | hne
      · rw [goto_tasks_self] at hj
        cases hj
      rw [goto_tasks_ne hne] at hj
      have hin := ho j hne
      rw [hj] at hin
      cases hin
    · intro w hw hh
      obtain rfl := Option.some.inj hw
      obtain ⟨hu,hle,-⟩ := h.loaded i req invite ht hh
      rw [usesOf_write,if_pos hh.symm,h.row]
      refine ⟨?_,hu ▸ hle⟩
      rw [Option.map_some,hu]
      rfl
    · intro w hw hh
      obtain rfl := Option.some.inj hw
      rw [usesOf_write,if_neg (Ne.symm hh)]
      rfl

lemma count_publish (s : Node) (w : Writer) (tokenHash : String) : (s.publish w).count tokenHash =
      s.count tokenHash + if w.tokenHash = tokenHash then 1 else 0 := by
  simp [Node.publish,Node.count,List.count_singleton]

lemma Counted.publish (h : Counted tokenHash maxUses first s) {w : Writer}
    (hw : s.writer = some w) : Counted tokenHash maxUses first (s.publish w) := by
  have hc := count_publish s w tokenHash
  by_cases hh : w.tokenHash = tokenHash
  · obtain ⟨hr,hle⟩ := h.own w hw hh
    rw [if_pos hh] at hc
    constructor
    · exact h.inside
    · rw [hc,Nat.cast_succ,← add_assoc]
      exact hr
    · right
      rw [hc,Nat.cast_succ,← add_assoc]
      exact hle
    · intro j req invite hj hi
      exact absurd hh ((h.loaded j req invite hj hi).2.2 w hw)
    · exact fun _ hn => nomatch hn
    · exact fun _ hn => nomatch hn
  rw [if_neg hh,Nat.add_zero] at hc
  constructor
  · exact h.inside
  · rw [hc]
    exact (h.other w hw hh).trans h.row
  · rw [hc]
    exact h.bound
  · intro j req invite hj hi
    obtain ⟨hu,hle,-⟩ := h.loaded j req invite hj hi
    rw [hc]
    exact ⟨hu,hle,fun _ hn => nomatch hn⟩
  · exact fun _ hn => nomatch hn
  · exact fun _ hn => nomatch hn

lemma step_counted (hm : 0 < maxUses) (h : Counted tokenHash maxUses first s) {l : Label}
    (hok : Undisturbed sha256Hex s l) : Counted tokenHash maxUses first (step sha256Hex s l) := by
  cases l with
  | acquire i req =>
    simp only [step]
    split
    next hf =>
      -- nobody is inside while the lock is free
      have hn : ∀ j, (s.tasks j).inside = false := by
        intro j
        by_contra hin
        have := h.inside j (by simpa using hin)
        rw [hf] at this
        cases this
      have hl : Counted tokenHash maxUses first { s with lock := some i } :=
        ⟨fun j hj => by simp [hn j] at hj,h.row,h.bound,h.loaded,h.own,h.other⟩
      exact hl.goto (fun _ => rfl) fun _ _ e => nomatch e
    · exact h
  | gate i now =>
    simp only [step]
    split
    next req ht => exact h.gate ht
    · exact h
  | load i now =>
    simp only [step]
    split
    next req ht =>
      refine h.load hm ht (hok _ ?_)
      rw [ht]
      rfl
    · exact h
  | flush i now =>
    simp only [step]
    split
    next req invite ht _ => exact h.flush ht
    · exact h
  | commit i =>
    simp only [step]
    split
    · exact h
    next w hw =>
      split_ifs
      · exact (h.publish hw).goto (fun e => nomatch e) fun _ _ e => nomatch e
      · exact h
  | rollback i => exact h.fail i

/-- No more redemptions of an invite are committed than it allows, if no request loads the
invite while a redemption of it is not committed yet. -/
theorem redemptions_limited {committed : InviteStore} (manager : InviteManager) {invite : Invite}
    (hinvite : committed.invites.get? tokenHash = some invite) (hmax : 0 < invite.maxUses)
    (huses : 0 ≤ invite.uses) {ls : List Label}
    (hok : Guarded (step sha256Hex) (Undisturbed sha256Hex) (start committed manager) ls) :
    ((run (step sha256Hex) (start committed manager) ls).count tokenHash : ℤ) ≤ invite.maxUses := by
  have hs : Counted tokenHash invite.maxUses invite.uses (start committed manager) := by
    constructor
    · exact fun _ e => nomatch e
    · simp [start,usesOf,hinvite,Node.count]
    · exact .inl rfl
    · exact fun _ _ _ e => nomatch e
    · exact fun _ e => nomatch e
    · exact fun _ e => nomatch e
  have he : Counted tokenHash invite.maxUses invite.uses
      (run (step sha256Hex) (start committed manager) ls) := by
    refine hok.invariant (I := Counted tokenHash invite.maxUses invite.uses) ?_ hs
    intro t l ht hl
    exact step_counted hmax ht hl
  rcases he.bound with hz | hle
  · rw [hz]
    exact_mod_cast hmax.le
  · omega

def sampleInvite : Invite := { tokenHash := "token", createdBy := "owner" }

def sampleStore : InviteStore :=
  { db := { store := {} }, invites := .singleton sampleInvite }

def alice : Request := ⟨"token","alice"⟩

theorem alice_alone :
    Agrees (start sampleStore {}) (run (step id) (start sampleStore {}) (steps 0 alice 100))
      (InviteManager.redeemInvite id {} sampleStore "token" "alice" 100) :=
  redeem_alone rfl rfl rfl

def bob : Request := ⟨"token","bob"⟩

def raceRun : List Label :=
  [.acquire 0 alice, .gate 0 100, .load 0 100, .flush 0 100, .acquire 1 bob, .gate 1 100,
    .load 1 100, .commit 0, .flush 1 101, .commit 1]

theorem invite_overused :
    let s := run (step id) (start sampleStore {}) raceRun
    sampleInvite.maxUses = 1 ∧ s.count "token" = 2 ∧ usesOf s.committed "token" = some (1, 1) := by
  decide +kernel

def serialRun : List Label := steps 0 alice 100 ++ steps 1 bob 101

theorem invite_used_once : (run (step id) (start sampleStore {}) serialRun).count "token" = 1 ∧
      ((run (step id) (start sampleStore {}) serialRun).count "token" : ℤ) ≤ sampleInvite.maxUses :=
  ⟨by decide +kernel,redemptions_limited {} rfl (by decide) (by decide) (by decide +kernel)⟩

end Hokora.InviteUses
