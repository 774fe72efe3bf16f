import Hokora.LiveDelivery

/-!
# What the buffer of a link holds

Records of a link, cut to the newest and by age, until they are drained.
-/
namespace Hokora.ZombieBuffer
open KeyedTable LiveDelivery TransitionRuns Windows
open ZombieLinkPushBuffer (record recorded)

variable {L : Type} [DecidableEq L]

inductive Event (L : Type) where
  | record (link : L) (push : Push) (now : ℚ)
  | drain (link : L)
  | clear (link : L)

def clear (b : ZombieLinkPushBuffer L) (link : L) : ZombieLinkPushBuffer L :=
  { b with pushes := b.pushes.erase link }

def step (b : ZombieLinkPushBuffer L) : Event L → ZombieLinkPushBuffer L
  | .record link push now => b.record link push now
  | .drain link => (b.drain link).2
  | .clear link => clear b link

/-- The records of a link since it was last drained or cleared. -/
def made (link : L) (xs : List (ℚ × Push)) : Event L → List (ℚ × Push)
  | .record l push now => if l = link then xs ++ [(now, push)] else xs
  | .drain l => if l = link then [] else xs
  | .clear l => if l = link then [] else xs

/-- The times of the records, in the order of the calls. -/
def times : List (Event L) → List ℚ := List.filterMap fun
  | .record _ _ now => some now
  | _ => none

variable {b : ZombieLinkPushBuffer L} {link : L} {e : Event L} {es : List (Event L)}

lemma recorded_erase {l : L} :
    (clear b l).recorded link = if l = link then [] else b.recorded link := by
  simp only [clear,recorded,Table.get?_erase,eq_comm (a := l)]
  split_ifs <;> rfl

/-- The buffer of a link holds what survives of `xs`, under these settings. -/
def Holds (link : L) (c : ℕ) (r : ℚ) (xs : List (ℚ × Push)) (b : ZombieLinkPushBuffer L) : Prop :=
  (b.perLinkCap = c ∧ b.retentionS = r) ∧ b.recorded link = survivors Prod.fst c r xs

lemma Holds.step {c : ℕ} {r : ℚ} {xs : List (ℚ × Push)} (hb : Holds link c r xs b)
    (h : (made link xs e).Pairwise fun x y => x.1 ≤ y.1) :
    Holds link c r (made link xs e) (step b e) := by
  obtain ⟨⟨rfl,rfl⟩,hb⟩ := hb
  refine ⟨by cases e <;> exact ⟨rfl,rfl⟩,?_⟩
  cases e with
  | record l push now =>
    by_cases hl : l = link
    · subst hl
      rw [made,if_pos rfl] at h ⊢
      rw [← survivors_concat h,← hb]
      simp [ZombieBuffer.step,record,recorded,Table.get?_set]
    · rw [made,if_neg hl]
      refine Eq.trans ?_ hb
      simp [ZombieBuffer.step,record,recorded,Table.get?_set,hl]
  | drain l | clear l =>
    refine recorded_erase.trans ?_
    rw [made]
    split_ifs
    · simp [survivors,keepNewest]
    · exact hb

lemma made_sublist {xs : List (ℚ × Push)} :
    ((made link xs e).map Prod.fst ++ times es).Sublist (xs.map Prod.fst ++ times (e :: es)) := by
  cases e with
  | record l push now =>
    simp only [made,times]
    split_ifs
    · simp
    · exact (List.sublist_cons_self ..).append_left _
  | drain l | clear l =>
    simp only [made]
    split_ifs
    · exact List.sublist_append_right _ (times es)
    · exact .refl _

lemma Holds.run {c : ℕ} {r : ℚ} {xs : List (ℚ × Push)} (hb : Holds link c r xs b)
    (h : (xs.map Prod.fst ++ times es).Pairwise (· ≤ ·)) :
    Holds link c r (es.foldl (made link) xs) (run ZombieBuffer.step b es) := by
  induction es generalizing xs b with
  | nil => exact hb
  | cons e es ih =>
    have hs := h.sublist (@made_sublist L _ link e es xs)
    exact ih (hb.step (List.pairwise_map.mp (List.pairwise_append.mp hs).1)) hs

/-- Draining a link gives its records since it was last drained or cleared: of the newest, as many
as the buffer holds, those within the retention of the last. -/
theorem drain_survivors (c : ℕ) (r : ℚ) (h : (times es).Pairwise (· ≤ ·)) (link : L) :
    ((run step { retentionS := r, perLinkCap := c } es).drain link).1 =
      survivors Prod.fst c r (es.foldl (made link) []) := by
  have hnew : Holds link c r [] { retentionS := r, perLinkCap := c } :=
    ⟨⟨rfl,rfl⟩,by simp [survivors,keepNewest]; rfl⟩
  exact (hnew.run h).2

def note : Push := ⟨"hall","message",[],none⟩

theorem drained_newest : ((run step { retentionS := 10, perLinkCap := 1 }
    [.record "a" note 0, .record "b" note 3, .record "a" note 5]).drain "a").1 = [(5, note)] :=
  (@drain_survivors _ _ [.record "a" note 0, .record "b" note 3, .record "a" note 5] 1 10
    (by decide +kernel) "a").trans (by simp [made,survivors,keepNewest])

end Hokora.ZombieBuffer
