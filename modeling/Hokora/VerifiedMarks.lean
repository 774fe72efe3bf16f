import Hokora.ClientMessages

/-!
# The mark of a verified message

History and live messages of a daemon that may set the mark itself.
-/
namespace Hokora.VerifiedMarks
open ClientMessages List PyValue SenderBinding TransitionRuns
open ReadHandlers (Entry)

structure SameMaterial (m d : Entry) : Prop where
  sender : field d "sender_hash" = field m "sender_hash"
  publicKey : field d "sender_public_key" = field m "sender_public_key"
  signedPart : field d "lxmf_signed_part" = field m "lxmf_signed_part"
  signature : field d "lxmf_signature" = field m "lxmf_signature"

/-- A true mark comes with the material of a message that was verified. -/
def Earned (proved : List Entry) (d : Entry) : Prop :=
  (field d "verified").truthy = true → ∃ m ∈ proved, complete m = true ∧ SameMaterial m d

namespace SameMaterial

lemma trans {a b c : Entry} (h : SameMaterial a b) (h' : SameMaterial b c) :
    SameMaterial a c :=
  ⟨h'.sender.trans h.sender,h'.publicKey.trans h.publicKey,h'.signedPart.trans h.signedPart,
    h'.signature.trans h.signature⟩

lemma complete_eq {m d : Entry} (h : SameMaterial m d) : complete d = complete m := by
  rw [complete,complete,h.sender,h.publicKey,h.signedPart,h.signature]

lemma assign (m : Entry) {k : String} (v : Val)
    (hk : k ∉ ["sender_hash", "sender_public_key", "lxmf_signed_part", "lxmf_signature"]) :
    SameMaterial m (assign m k v) := by
  simp only [mem_cons,not_mem_nil,or_false,not_or] at hk
  obtain ⟨h₁,h₂,h₃,h₄⟩ := hk
  exact ⟨field_assign_ne (Ne.symm h₁),field_assign_ne (Ne.symm h₂),
    field_assign_ne (Ne.symm h₃),field_assign_ne (Ne.symm h₄)⟩

lemma withThread (e m : Entry) : SameMaterial e (withThread e m) := by
  constructor <;> apply field_withThread <;> decide

lemma merged (e : Entry) {m : Entry} (h : complete m = true) : SameMaterial m (merged e m) := by
  have hf : ∀ k, (field m k).truthy = true → field (ClientMessages.merged e m) k = field m k := by
    intro k hk
    rw [field_merged,if_pos (lookup_isSome_of_truthy hk)]
  simp only [complete,Bool.and_eq_true] at h
  obtain ⟨⟨⟨hsi,hpu⟩,hp⟩,hs⟩ := h
  exact ⟨hf _ hs,hf _ hpu,hf _ hp,hf _ hsi⟩

end SameMaterial

namespace Earned
variable {proved : List Entry} {e m : Entry}

lemma mono {proved' : List Entry} (h : Earned proved e) (hsu : proved ⊆ proved') :
    Earned proved' e := by
  intro ht
  obtain ⟨p,hp,hc,hs⟩ := h ht
  exact ⟨p,hsu hp,hc,hs⟩

lemma congr (h : Earned proved e) (hs : SameMaterial e m)
    (hv : (field m "verified").truthy = true → (field e "verified").truthy = true) :
    Earned proved m := by
  intro ht
  obtain ⟨p,hp,hc,hpe⟩ := h (hv ht)
  exact ⟨p,hp,hc,hpe.trans hs⟩

lemma withThread (h : Earned proved e) (m : Entry) :
    Earned proved (ClientMessages.withThread e m) := by
  apply h.congr (SameMaterial.withThread e m)
  rw [field_withThread e m (by decide) (by decide) (by decide) (by decide)]
  exact id

lemma threaded (h : Earned proved e) : Earned proved (ClientMessages.threaded e) := by
  apply h.congr (SameMaterial.assign e _ (by decide))
  exact id

end Earned

structure Marked (proved : List Entry) (m : Entry) : Prop where
  present : (m.lookup "verified").isSome = true
  earned : Earned proved m

namespace Marked
variable {proved : List Entry} {m : Entry}

lemma assign (m : Entry) {b : Bool} (hb : b = true → m ∈ proved ∧ complete m = true) :
    Marked proved (assign m "verified" (.bool b)) := by
  refine ⟨by rw [ClientMessages.assign,lookup_cons_self]; rfl,?_⟩
  intro ht
  rw [field_assign_self] at ht
  obtain ⟨hm,hc⟩ := hb ht
  exact ⟨m,hm,hc,SameMaterial.assign m _ (by decide)⟩

lemma merged (h : Marked proved m) (e : Entry) : Earned proved (merged e m) := by
  intro ht
  rw [field_merged,if_pos h.present] at ht
  obtain ⟨p,hp,hc,hs⟩ := h.earned ht
  exact ⟨p,hp,hc,hs.trans (SameMaterial.merged e (hs.complete_eq.trans hc))⟩

end Marked

def AllEarned (s : Client) : Prop := Held (Earned s.proved) s

variable {s : Client} {msg : Entry} {sig : SignatureScheme} {outcome : Py (Option Bool)}

lemma verify_earned {s' : Client} (h : AllEarned s) (hv : s.verify sig msg = (s', outcome)) :
    AllEarned s' ∧ s.proved ⊆ s'.proved ∧ ∀ verdict, outcome = .ok verdict →
        (verdict = none ↔ complete msg = false) ∧ (verdict = some true → msg ∈ s'.proved) := by
  rcases s.verify_cases sig msg with ⟨e,he⟩ | ⟨verdict,identityKeys,tofuKeys,hc,he⟩
  · rw [hv] at he
    cases he
    exact ⟨h,fun _ hm => hm,nofun⟩
  rw [hv] at he
  cases he
  have hs : s.proved ⊆ if verdict = some true then s.proved ++ [msg] else s.proved := by
    split_ifs
    · exact subset_append_left _ _
    · exact fun _ hm => hm
  have hh := h.mono fun e he => Earned.mono he hs
  refine ⟨⟨hh.cached,hh.alarms,hh.stored⟩,hs,?_⟩
  intro verified' hv'
  cases hv'
  refine ⟨hc,fun ht => ?_⟩
  rw [if_pos ht]
  exact mem_append_right _ mem_cons_self

lemma verifyAll_earned (sig : SignatureScheme) (h : AllEarned s) (ms : List Entry) :
    AllEarned (verifyAll sig s ms).1 ∧ s.proved ⊆ (verifyAll sig s ms).1.proved ∧
      ∀ checked, (verifyAll sig s ms).2 = .ok checked →
        ∀ m ∈ checked, Marked (verifyAll sig s ms).1.proved m := by
  induction ms generalizing s with
  | nil =>
    refine ⟨h,fun _ hm => hm,?_⟩
    intro checked hc m hm
    cases hc
    cases hm
  | cons m ms ih =>
    rw [verifyAll]
    cases hv : s.verify sig m with
    | mk s' outcome =>
      obtain ⟨h',hs,ho⟩ := verify_earned h hv
      cases outcome with
      | error e => exact ⟨h',hs,nofun⟩
      | ok verdict =>
        obtain ⟨hre,hs',hma⟩ := ih h'
        refine ⟨hre,fun _ hp => hs' (hs hp),?_⟩
        intro checked hc
        obtain ⟨rest,hr,rfl⟩ := map_eq_ok.mp hc
        intro c hcm
        rcases mem_cons.mp hcm with rfl | hcm
        · apply Marked.assign
          intro hb
          have ht : verdict = some true := of_decide_eq_true hb
          obtain ⟨hn,hin⟩ := ho verdict rfl
          refine ⟨hs' (hin ht),?_⟩
          rw [ht] at hn
          simpa using hn
        · exact hma rest hr c hcm

lemma onMessages_marked (h : AllEarned s) (ch latest : Val) {ms : List Entry}
    (hms : ∀ m ∈ ms, Marked s.proved m) : AllEarned (onMessages s ch ms latest).1 := by
  rw [AllEarned,onMessages_proved]
  apply h.onMessages
  · intro c _
    apply mergeAll_cached
    · intro x m _ hm _
      exact (hms m hm).merged x
    · intro x m hx
      exact hx.withThread m
    · exact h.cached c
  · intro m hm
    exact (hms m (mem_of_mem_filter hm)).earned

lemma handleHistory_earned (sig : SignatureScheme) (h : AllEarned s) (ch : Val)
    (ms : List Entry) : AllEarned (handleHistory sig s ch ms).1 := by
  unfold handleHistory
  split_ifs
  · exact h
  obtain ⟨hall,-,hm⟩ := verifyAll_earned sig h ms
  cases hv : verifyAll sig s ms with
  | mk s' outcome =>
    rw [hv] at hall hm
    cases outcome with
    | error e => exact hall
    | ok checked =>
      cases hashKey ch with
      | error e => exact hall
      | ok c =>
        dsimp only
        cases nextCursor (s'.cursor c) checked with
        | error e => exact hall
        | ok top =>
          split_ifs
          · exact onMessages_marked hall ch top (hm checked rfl)
          have hs : (s'.setCursor c top).proved = s'.proved := by cases c <;> rfl
          apply onMessages_marked
          · rw [AllEarned,hs]
            exact hall.setCursor c top
          · rw [hs]
            exact hm checked rfl

/-- A live message without complete material has no true mark. It has a mark or, where it fills in a
shown message with a true one, leaves the signature fields as they are. -/
def Honest (s : Client) : Event → Prop
  | .history _ _ => True
  | .message msg => complete msg = false →
      (field msg "verified").truthy = false ∧ ((msg.lookup "verified").isSome = true ∨
          ∀ e ∈ s.cached (keyOf (field msg "channel_id")), entryKey e = entryKey msg →
            (field e "verified").truthy = true → SameMaterial e (merged e msg))
  | .messageUpdated msg => (field msg "verified").truthy = false
  | .alarm => True

lemma onMessages_unsigned (h : AllEarned s) (hu : complete msg = false)
    (hok : Honest s (.message msg)) (latest : Val) :
    AllEarned (onMessages s (field msg "channel_id") [msg] latest).1 := by
  obtain ⟨hf,hfi⟩ := hok hu
  rw [AllEarned,onMessages_proved]
  apply h.onMessages
  · intro c hc e he
    rw [mergeAll] at he
    cases hm : mergeOne { cached := s.cached c } msg with
    | error err =>
      rw [hm] at he
      exact h.cached c e he
    | ok g =>
      rw [hm] at he
      rcases mergeOne_cached hm he with he | ⟨x,hx,hk,rfl | rfl⟩
      · exact h.cached c e he
      · intro ht
        rw [field_merged] at ht
        split_ifs at ht with hpr
        · rw [hf] at ht
          cases ht
        have hke : keyOf (field msg "channel_id") = c := by
          rw [keyOf,hc]
          cases c <;> rfl
        rw [hke] at hfi
        have hs := (hfi.resolve_left hpr) x hx hk ht
        obtain ⟨p,hp,hpc,hpx⟩ := h.cached c x hx ht
        exact ⟨p,hp,hpc,hpx.trans hs⟩
      · exact (h.cached c x hx).withThread msg
  · intro m hm ht
    rw [mem_singleton.mp (mem_of_mem_filter hm),hf] at ht
    cases ht

lemma onMessages_verdict (h : AllEarned s) {verdict : Option Bool}
    (hn : verdict = none ↔ complete msg = false)
    (hp : verdict = some true → msg ∈ s.proved) (hok : Honest s (.message msg)) (latest : Val) :
    AllEarned (onMessages s (field msg "channel_id") [marked msg verdict] latest).1 := by
  cases verdict with
  | none => exact onMessages_unsigned h (hn.mp rfl) hok latest
  | some b =>
    apply onMessages_marked h
    intro m hm
    rw [mem_singleton.mp hm]
    apply Marked.assign
    rintro rfl
    exact ⟨hp rfl,by simpa using hn⟩

lemma honest_verify {s' : Client} (hv : s.verify sig msg = (s', outcome))
    (hok : Honest s (.message msg)) : Honest s' (.message msg) := by
  rcases s.verify_cases sig msg with ⟨e,he⟩ | ⟨verified,identityKeys,tofuKeys,-,he⟩
  · rw [hv] at he
    cases he
    exact hok
  rw [hv] at he
  cases he
  exact hok

lemma dispatchMessage_earned (h : AllEarned s) (hok : Honest s (.message msg)) :
    AllEarned (dispatchMessage sig s msg).1 := by
  simp only [dispatchMessage]
  split_ifs
  · exact h
  cases hv : s.verify sig msg with
  | mk s' outcome =>
    obtain ⟨h',-,ho⟩ := verify_earned h hv
    cases outcome with
    | error e => exact h'
    | ok verdict =>
      have hm := onMessages_verdict h' (ho verdict rfl).1 (ho verdict rfl).2
        (honest_verify hv hok) (seqOf (marked msg verdict))
      dsimp only
      cases hr : onMessages s' (field msg "channel_id") [marked msg verdict]
          (seqOf (marked msg verdict)) with
      | mk t result =>
        rw [hr] at hm
        cases result with
        | error e => exact hm
        | ok u =>
          split_ifs
          · exact hm.schedule (a := .markThread _ _) nofun
          · exact hm

lemma step_earned (s : Client) (e : Event) (h : AllEarned s) (hok : Honest s e) :
    AllEarned (step sig s e) := by
  cases e with
  | history channelId ms => exact handleHistory_earned sig h channelId ms
  | message msg => exact dispatchMessage_earned h hok
  | messageUpdated msg =>
    apply h.schedule
    intro e he ht
    rw [mem_singleton.mp he] at ht
    exact absurd ht (Bool.eq_false_iff.mp hok)
  | alarm =>
    simp only [step]
    cases ha : s.alarms with
    | nil => exact h
    | cons a rest =>
      have hr : Held (Earned s.proved) { s with alarms := rest } :=
        ⟨h.cached,fun b hb => h.alarms b (ha ▸ mem_cons_of_mem _ hb),h.stored⟩
      rw [AllEarned,fire_proved]
      exact hr.fire (fun e he => he.threaded) (h.alarms a (ha ▸ mem_cons_self))

/-- In a run of honest deliveries every dictionary that is stored with a true mark carries the
material of a message that was verified, whatever came in batches or was replayed. -/
theorem verified_marks_earned (sig : SignatureScheme) (incoming : List Incoming)
    (h : Guarded (step sig) Honest {} (eventsAll incoming)) :
    ∀ d ∈ (run (step sig) {} (eventsAll incoming)).stored, (field d "verified").truthy = true →
      ∃ m ∈ (run (step sig) {} (eventsAll incoming)).proved, SameMaterial m d := by
  have hi : AllEarned {} := ⟨fun c e he => by cases c <;> exact absurd he not_mem_nil, nofun,nofun⟩
  have hr : AllEarned (run (step sig) {} (eventsAll incoming)) :=
    Guarded.invariant (I := AllEarned) step_earned hi h
  intro d hd ht
  obtain ⟨m,hm,-,hs⟩ := hr.stored d hd ht
  exact ⟨m,hm,hs⟩

def plain : Entry := [("channel_id", .str "c"), ("msg_hash", .str "m"), ("seq", .int 1)]

def forged : Entry := plain ++ [("body", .str "hello"), ("verified", .bool true)]

def patched : List Event := [.message plain, .messageUpdated forged, .alarm, .alarm]

theorem forged_mark_stored : (∃ d ∈ (run (step sampleScheme) {} [.message forged]).stored,
        (field d "verified").truthy = true) ∧
      (run (step sampleScheme) {} [.message forged]).proved = [] ∧
      (∃ d ∈ (run (step sampleScheme) {} patched).stored, (field d "verified").truthy = true) ∧
      (run (step sampleScheme) {} patched).proved = [] := by
  refine ⟨⟨forged,mem_cons_self,rfl⟩,rfl,⟨forged,?_,rfl⟩,rfl⟩
  exact mem_cons_of_mem _ mem_cons_self

def signed : Entry :=
  [("channel_id", .str "c"), ("msg_hash", .str "s"), ("seq", .int 1)] ++ sampleMaterial 7

def sampleIncoming : List Incoming :=
  [.event (.history (.str "c") [signed]), .event .alarm,
    .batch [.event (.message plain), .replay [.event (.messageUpdated plain)]], .event .alarm]

theorem sample_marks_earned : Guarded (step sampleScheme) Honest {} (eventsAll sampleIncoming) ∧
      (run (step sampleScheme) {} (eventsAll sampleIncoming)).stored.map
        (fun d => (field d "verified").truthy) = [true, false] ∧
      ∀ d ∈ (run (step sampleScheme) {} (eventsAll sampleIncoming)).stored,
        (field d "verified").truthy = true →
          ∃ m ∈ (run (step sampleScheme) {} (eventsAll sampleIncoming)).proved,
            SameMaterial m d := by
  have ho : Honest (run (step sampleScheme) {} [.history (.str "c") [signed], .alarm])
      (.message plain) := by
    refine fun _ => ⟨rfl,.inr ?_⟩
    intro e he hk
    have hm : e ∈ [assign signed "verified" (.bool true)] := he
    rw [mem_singleton.mp hm] at hk
    exact absurd hk (by decide)
  have hg : Guarded (step sampleScheme) Honest {} (eventsAll sampleIncoming) :=
    ⟨trivial,trivial,ho,rfl,trivial,trivial⟩
  exact ⟨hg,rfl,verified_marks_earned sampleScheme sampleIncoming hg⟩

end Hokora.VerifiedMarks
