import Hokora.FederatedAcceptance
import Hokora.Memberships
import Hokora.NodeRuns
import Hokora.Redelivery

/-!
# New content after a ban

All three write paths in any order. The mirror does not ask for bans, so no mirrored message may
name the identity.
-/
namespace Hokora.BannedContent
open Database FederatedAcceptance GroupKeys KeyedTable Memberships MessageProcessor MirrorIngest
  NodeRuns PushReceive PyValue RateLimit Redelivery Repositories SenderBinding TransitionRuns
  WireRows
open Ban (isBlocked)
open MessageRepo (getByHash)

/-- Every row of the identity was a row of the identity before. -/
def NoNewContent (h : String) (st st' : Store) : Prop :=
  ∀ k row', getByHash st' k = some row' → row'.senderHash = some h →
    ∃ row, getByHash st k = some row ∧ row.senderHash = some h

section
variable {h : String} {st st₁ st' : Store}

lemma NoNewContent.refl (h : String) (st : Store) : NoNewContent h st st :=
  fun _ row hr hs => ⟨row,hr,hs⟩

lemma NoNewContent.trans (h₁ : NoNewContent h st st₁) (h₂ : NoNewContent h st₁ st') :
    NoNewContent h st st' := by
  intro k row' hr' hs'
  obtain ⟨row,hr,hs⟩ := h₂ k row' hr' hs'
  exact h₁ k row hr hs

lemma NoNewContent.of_grown (hg : Grown (fun row => row.senderHash ≠ some h) st st') :
    NoNewContent h st st' := by
  intro k row' hr' hs'
  cases ho : getByHash st k with
  | none => exact absurd hs' (hg.added ho hr')
  | some row =>
    have hs : row = row' := Option.some.inj ((hg.kept ho).symm.trans hr')
    exact ⟨row,rfl,by rw [hs,hs']⟩

lemma isBlocked_identities (hid : st'.identities = st.identities) {k : String} :
    isBlocked st' k = isBlocked st k := by
  unfold isBlocked IdentityRepo.isBlocked IdentityRepo.getByHash
  rw [hid]

section
variable {prim : Primitives} {mp : Processor} {m : Moment} {env : MessageEnvelope}
  {channel : Channel} {r : Message × Store}

lemma route_new_sender {k : String} {row : Message} (hr : route prim mp m st env channel = .ok r)
    (hn : getByHash st k = none) (hro : getByHash r.2 k = some row) :
    row.senderHash = some env.senderHash := by
  have hk : row.msgHash = k := Table.get?_key hro
  rw [← hk] at hn hro
  exact (WriteAuthorisation.route_new_row hr hn hro).1

lemma RowChange.senderHash {row row' : Message} (hc : RowChange prim mp m env row row') :
    row'.senderHash = row.senderHash := by
  cases hc <;> rfl

lemma route_noNewContent (hr : route prim mp m st env channel = .ok r)
    (hne : env.senderHash ≠ h) : NoNewContent h st r.2 := by
  intro k row' hr' hs'
  cases ho : getByHash st k with
  | none =>
    rw [route_new_sender hr ho hr'] at hs'
    exact absurd (Option.some.inj hs') hne
  | some row =>
    obtain ⟨row₁,hrow₁,hc⟩ := route_row hr ho
    cases hrow₁.symm.trans hr'
    exact ⟨row,rfl,(RowChange.senderHash hc).symm.trans hs'⟩

lemma ingest_banned {lim : Option RateLimiter} (hmp : mp.permissionResolver.isSome)
    (hb : isBlocked st h = true) :
    isBlocked (committed st (ingest prim mp m lim st env).2) h = true ∧
      NoNewContent h st (committed st (ingest prim mp m lim st env).2) := by
  obtain ⟨resolver,hr⟩ := Option.isSome_iff_exists.mp hmp
  cases hin : (ingest prim mp m lim st env).2 with
  | error e => exact ⟨hb,.refl h st⟩
  | ok r =>
    obtain ⟨channel,env',-,-,hp,hro⟩ := ingest_ok hin
    obtain ⟨hf,-,-⟩ := (checkPermissions_ok hr).mp hp
    obtain ⟨_,_,rfl⟩ := checkPermissions_normalised hp
    refine ⟨((route_sameGate hro).blocked h).trans hb,route_noNewContent hro ?_⟩
    rintro rfl
    exact Bool.false_ne_true (hf.symm.trans hb)

end

section
variable {sig : SignatureScheme} {b : PushBatch} {now : ℚ} {d : MsgData}

lemma verifySenderBinding_text {senderHash key part signature : Val} {rs : Bool}
    (hv : (verifySenderBinding sig senderHash key part signature rs).1 = true) :
    ∃ sender, senderHash = .str sender ∧ sender ≠ "" := by
  unfold verifySenderBinding at hv
  split at hv
  next sender =>
    split_ifs at hv with he
    all_goals exact ⟨sender,rfl,he⟩
  · cases hv

lemma storeEntry_noNewContent {content : WireBody} {r : ℕ × Store}
    (hst : storeEntry b now st d content = .ok r) (hne : bindText d.senderHash ≠ .ok (some h)) :
    r.2.identities = st.identities ∧ NoNewContent h st r.2 := by
  obtain ⟨seq,st'⟩ := r
  obtain ⟨c,name,row,t,-,-,-,hb,hi,rfl⟩ := storeEntry_cases hst
  refine ⟨rfl,.of_grown (.insert hi ?_)⟩
  intro hs
  refine hne ?_
  rw [← hs]
  exact (WireRow.bind_retimed hb now).1

lemma pushEntry_noNewContent {a : Answer} (hb : isBlocked st h = true)
    (he : pushEntry sig b now st d = .ok (a, st')) :
    st'.identities = st.identities ∧ NoNewContent h st st' := by
  obtain ⟨-,-,-,rfl⟩ | ⟨-,⟨-,-,rfl⟩ | ⟨content,seq,hv,hst,-⟩⟩ :=
    pushEntry_cases he
  · exact ⟨rfl,.refl h _⟩
  · exact ⟨rfl,.refl h _⟩
  obtain ⟨hf,hbi,-⟩ := vetEntry_some.mp hv
  obtain ⟨sender,hs,hem⟩ := verifySenderBinding_text hbi
  refine storeEntry_noNewContent hst ?_
  rw [hs]
  rintro ⟨⟩
  have ht : d.senderHash.truthy = true := by simp [hs,Val.truthy,hem]
  have hw := hf ht
  simp [isBlockedWire,hs,bindText,hb,pure,Except.pure] at hw

lemma handlePushMessages_banned {L : Type} {config : Option FederationConfig} {p : Val}
    {ch rq : Option String} {link : Option L}
    (hb : isBlocked st h = true) :
    isBlocked (committed st (handlePushMessages sig config now st p ch rq link)) h = true ∧
      NoNewContent h st (committed st (handlePushMessages sig config now st p ch rq link)) := by
  rcases handlePushMessages_cases with hs | ⟨c,b,entries,as,st',-,he,hs⟩
  · rw [hs]
    exact ⟨hb,.refl h st⟩
  rw [hs]
  refine pushEntries_rel (R := fun s s' => isBlocked s h = true →
    isBlocked s' h = true ∧ NoNewContent h s s') (fun s hb => ⟨hb,.refl h s⟩) ?_ ?_ he hb
  · intro s s₁ s₂ h₁ h₂ hb
    obtain ⟨hb₁,hn₁⟩ := h₁ hb
    obtain ⟨hb₂,hn₂⟩ := h₂ hb₁
    exact ⟨hb₂,hn₁.trans hn₂⟩
  · intro s s' d a he hb
    obtain ⟨hid,hn⟩ := pushEntry_noNewContent hb he
    exact ⟨(isBlocked_identities hid).trans hb,hn⟩

end

def mirrorSender (msgData : Val) : Option String :=
  match fieldOr msgData "sender_hash" with
  | .str sender => some sender
  | _ => none

lemma mirrorSender_eq {md : Val} {d : MsgData} {sender : String}
    (hd : MsgData.ofVal md = .ok d) (hs : d.senderHash = .str sender) :
    mirrorSender md = some sender := by
  obtain ⟨_,-,hd⟩ := bind_ok hd
  obtain ⟨_,-,hd⟩ := bind_ok hd
  obtain ⟨v,hg,hd⟩ := bind_ok hd
  have hv : d.senderHash = v := by
    iterate 10 obtain ⟨_,-,hd⟩ := bind_ok hd
    cases hd
    rfl
  unfold mirrorSender fieldOr
  rw [hg,← hv,hs]

lemma mirror_banned {sig : SignatureScheme} {rs : Bool} {now : ℚ}
    {ch : String} {md : Val} {ph : String} (hne : mirrorSender md ≠ some h)
    (hb : isBlocked st h = true) :
    isBlocked (MirrorIngest.ingest sig rs now st ch md ph) h = true ∧ NoNewContent h st
        (MirrorIngest.ingest sig rs now st ch md ph) := by
  unfold MirrorIngest.ingest
  cases htx : ingestTx sig rs now st ch md ph with
  | error e => exact ⟨hb,.refl h st⟩
  | ok st' =>
    cases ingestTx_effect htx with
    | stored hd _ hp _ _ hst =>
      obtain ⟨-,-,-,hbi⟩ := precheck_true.mp hp
      obtain ⟨sender,hs,-⟩ := verifySenderBinding_text hbi
      have ho : sender ≠ h := by
        rintro rfl
        exact hne (mirrorSender_eq hd hs)
      obtain ⟨hid,hr⟩ := storeEntry_noNewContent (h := h) hst (by
        rw [hs]
        rintro ⟨⟩
        exact ho rfl)
      exact ⟨(isBlocked_identities hid).trans hb,hr⟩
    | _ => exact ⟨hb,.refl h _⟩

end

/-- The daemon's processor has a permission resolver. -/
def FromDaemon : Event → Prop
  | .ingest mp _ _ _ => mp.permissionResolver.isSome
  | _ => True

/-- No mirrored message names the identity as its sender. -/
def NotMirrored (h : String) : Event → Prop
  | .mirror _ _ msgData _ => mirrorSender msgData ≠ some h
  | _ => True

lemma step_banned {w : Setting} {h : String} {n : Node} {e : Event} (hd : FromDaemon e)
    (hm : NotMirrored h e) (hb : isBlocked n.store h = true) :
    isBlocked (step w n e).store h = true ∧ NoNewContent h n.store (step w n e).store := by
  cases e with
  | ingest mp m lim env => exact ingest_banned hd hb
  | push now payload channelId requesterHash =>
    exact handlePushMessages_banned hb
  | mirror now channelId msgData peerHash =>
    exact mirror_banned hm hb

/-- After a ban, in a run in which no peer's mirror brings a message of the identity, no row of
the identity is added. -/
theorem no_new_content_after_ban {w : Setting} {nodeOwnerHash : Option String} {db db' : KeyStore}
    {h actor : String} {now : ℚ} {result : BanResult}
    (hban : ban nodeOwnerHash db h actor now = .ok (result, db')) {es : List Event}
    (hdaemon : ∀ e ∈ es, FromDaemon e) (hmirror : ∀ e ∈ es, NotMirrored h e) :
    NoNewContent h db'.store (run (step w) { store := db'.store } es).store := by
  -- the ban stays, and with it the rows of each step
  have hi : isBlocked (run (step w) { store := db'.store } es).store h = true ∧
      NoNewContent h db'.store (run (step w) { store := db'.store } es).store := by
    refine run_invariant_mem (I := fun n : Node => isBlocked n.store h = true ∧
      NoNewContent h db'.store n.store) ?_ ⟨isBlocked_ban hban,.refl h _⟩
    rintro n e he ⟨hb,hr⟩
    obtain ⟨hb',hn⟩ := step_banned (w := w) (hdaemon e he) (hmirror e he) hb
    exact ⟨hb',hr.trans hn⟩
  exact hi.2

def sampleBanned : KeyStore :=
  ((ban none { store := sampleStore } sampleHash "node" 900).toOption.map Prod.snd).getD
    { store := sampleStore }

lemma sampleBanned_ok : ∃ result, ban none { store := sampleStore } sampleHash "node" 900 =
      .ok (result, sampleBanned) :=
  ⟨_,rfl⟩

def sampleSetting : Setting := ⟨WriteAuthorisation.samplePrimitives,sampleScheme,{}⟩

def pushRun : List Event := [.push 1000 samplePush none none]

theorem banned_push_refused :
    (run (step sampleSetting) { store := sampleBanned.store } pushRun).store.messages.rows.length =
        0 ∧
      NoNewContent sampleHash sampleBanned.store
        (run (step sampleSetting) { store := sampleBanned.store } pushRun).store := by
  refine ⟨by decide +kernel,?_⟩
  obtain ⟨result,hb⟩ := sampleBanned_ok
  refine no_new_content_after_ban hb ?_ ?_
  · intro e he
    rw [List.mem_singleton.mp he]
    trivial
  intro e he
  rw [List.mem_singleton.mp he]
  trivial

def mirrorRun : List Event := [.mirror 1000 "general" (sampleEntry "h1" "hello") "peer"]

theorem banned_mirror_stored : ¬ NoNewContent sampleHash sampleBanned.store
        (run (step sampleSetting) { store := sampleBanned.store } mirrorRun).store := by
  intro hno
  have hs : (getByHash
      (run (step sampleSetting) { store := sampleBanned.store } mirrorRun).store "h1").map
        Message.senderHash = some (some sampleHash) := by decide +kernel
  obtain ⟨row,hr,hs⟩ := Option.map_eq_some_iff.mp hs
  obtain ⟨old,ho,-⟩ := hno "h1" row hr hs
  have ha : (getByHash sampleBanned.store "h1").isSome = false := by
    decide +kernel
  rw [ho] at ha
  cases ha

end Hokora.BannedContent
