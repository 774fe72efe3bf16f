import Mathlib.Tactic.Common
import Mathlib.Data.List.Basic

/-!
# Runs of a labelled step function

Invariants of all runs, and of the runs whose steps meet a condition on the state before.
-/
namespace Hokora.TransitionRuns
open List

variable {S L : Type*}

def run (step : S → L → S) : S → List L → S
  | s, [] => s
  | s, l :: ls => run step (step s l) ls

@[simp] lemma run_nil {step : S → L → S} {s : S} : run step s [] = s := rfl

@[simp] lemma run_cons (step : S → L → S) (s : S) (l : L) (ls : List L) :
    run step s (l :: ls) = run step (step s l) ls := rfl

lemma run_append (step : S → L → S) (s : S) (ks ls : List L) :
    run step s (ks ++ ls) = run step (run step s ks) ls := by
  induction ks generalizing s with
  | nil => rfl
  | cons k ks ih => exact ih (step s k)

variable {ls : List L} {s : S} {I : S → Prop}

lemma run_invariant_mem {step : S → L → S} (hst : ∀ s, ∀ l ∈ ls, I s → I (step s l)) (hs : I s) :
    I (run step s ls) := by
  induction ls generalizing s with
  | nil => exact hs
  | cons l ls ih =>
    exact ih (fun t k hk => hst t k (mem_cons_of_mem l hk)) (hst s l mem_cons_self hs)

lemma run_invariant {step : S → L → S} (hst : ∀ s l, I s → I (step s l)) (hs : I s)
    (ls : List L) : I (run step s ls) :=
  run_invariant_mem (fun s l _ => hst s l) hs

lemma run_read_kept {V : Type*} {step : S → L → S} (read : S → V) (hI : ∀ s l, I s → I (step s l))
    (hke : ∀ s, I s → ∀ l ∈ ls, read (step s l) = read s) (hs : I s) :
    read (run step s ls) = read s := by
  induction ls generalizing s with
  | nil => rfl
  | cons l ls ih =>
    rw [run_cons,ih (fun t ht k hk => hke t ht k (mem_cons_of_mem l hk)) (hI s l hs)]
    exact hke s hs l mem_cons_self

lemma run_read_once {V : Type*} {step : S → L → S} {Q : V → Prop} (read : S → V)
    (hI : ∀ s l, I s → I (step s l)) {l : L} (hn : ls.Nodup) (hl : l ∈ ls)
    (hke : ∀ s, I s → ∀ k ∈ ls, k ≠ l → read (step s k) = read s) (hs : I s)
    (ho : ∀ t, I t → read t = read s → Q (read (step t l))) : Q (read (run step s ls)) := by
  induction ls generalizing s with
  | nil => cases hl
  | cons k ls ih =>
    obtain ⟨hk,hn⟩ := nodup_cons.mp hn
    have hr : ∀ t, I t → ∀ j ∈ ls, j ≠ l → read (step t j) = read t :=
      fun t ht j hj => hke t ht j (mem_cons_of_mem k hj)
    rw [run_cons]
    rcases mem_cons.mp hl with rfl | hl
    · have hsa : read (run step (step s l) ls) = read (step s l) :=
        run_read_kept read hI (fun t ht j hj => hr t ht j hj fun e => hk (e ▸ hj)) (hI s l hs)
      rw [hsa]
      exact ho s hs rfl
    · have hne : k ≠ l := fun e => hk (e ▸ hl)
      have hre := hke s hs k mem_cons_self hne
      exact ih hn hl hr (hI s k hs) fun t ht h => ho t ht (h.trans hre)

/-- Every label meets its condition in the state in which it is taken. -/
def Guarded (step : S → L → S) (ok : S → L → Prop) : S → List L → Prop
  | _, [] => True
  | s, l :: ls => ok s l ∧ Guarded step ok (step s l) ls

instance Guarded.decidable (step : S → L → S) (ok : S → L → Prop)
    [∀ s l, Decidable (ok s l)] : (s : S) → (ls : List L) → Decidable (Guarded step ok s ls)
  | _, [] => inferInstanceAs (Decidable True)
  | s, l :: ls =>
    haveI := Guarded.decidable step ok (step s l) ls
    inferInstanceAs (Decidable (ok s l ∧ Guarded step ok (step s l) ls))

variable {step : S → L → S} {ok : S → L → Prop}

lemma Guarded.append {ks : List L} : Guarded step ok s (ks ++ ls) ↔
      Guarded step ok s ks ∧ Guarded step ok (run step s ks) ls := by
  induction ks generalizing s with
  | nil => simp [Guarded]
  | cons k ks ih => simp [Guarded,ih,and_assoc]

lemma Guarded.congr {ok' : S → L → Prop} (h : ∀ s l, ok s l ↔ ok' s l) :
    Guarded step ok s ls ↔ Guarded step ok' s ls := by
  induction ls generalizing s with
  | nil => exact Iff.rfl
  | cons l ls ih => exact and_congr (h s l) ih

lemma Guarded.last {ks : List L} {l : L} (h : Guarded step ok s (ks ++ [l])) :
    Guarded step ok s ks ∧ ok (run step s ks) l := by
  have hs := Guarded.append.mp h
  exact ⟨hs.1,hs.2.1⟩

lemma Guarded.of_forall (hn : ls.Nodup)
    (ho : ∀ s, ∀ k ∈ ls, ∀ l ∈ ls, k ≠ l → ok s l → ok (step s k) l) (h : ∀ l ∈ ls, ok s l) :
    Guarded step ok s ls := by
  induction ls generalizing s with
  | nil => trivial
  | cons k ls ih =>
    obtain ⟨hk,hn⟩ := nodup_cons.mp hn
    refine ⟨h k mem_cons_self,ih hn ?_ ?_⟩
    · intro t j hj l hl
      exact ho t j (mem_cons_of_mem k hj) l (mem_cons_of_mem k hl)
    intro l hl
    have hne : k ≠ l := fun e => hk (e ▸ hl)
    exact ho s k mem_cons_self l (mem_cons_of_mem k hl) hne (h l (mem_cons_of_mem k hl))

lemma Guarded.invariant (hst : ∀ s l, I s → ok s l → I (step s l)) (hs : I s)
    (h : Guarded step ok s ls) : I (run step s ls) := by
  induction ls generalizing s with
  | nil => exact hs
  | cons l ls ih => exact ih (hst s l hs h.1) h.2

lemma run_iff_guarded {G : S → Prop} (hs : ∀ s l, G (step s l) ↔ G s ∧ ok s l) :
    G (run step s ls) ↔ G s ∧ Guarded step ok s ls := by
  induction ls generalizing s with
  | nil => simp [Guarded]
  | cons l ls ih => rw [run_cons,ih,hs,Guarded,and_assoc]

lemma always_iff_guarded {G : S → Prop} {A : L → Prop}
    (hI : ∀ s l, A l → I s → ok s l → I (step s l))
    (hG : ∀ s l, A l → I s → (G (step s l) ↔ ok s l)) (hs : I s) (hg : G s) (hls : ∀ l ∈ ls, A l) :
    (∀ ks, ks <+: ls → G (run step s ks)) ↔ Guarded step ok s ls := by
  induction ls generalizing s with
  | nil =>
    refine iff_of_true (fun ks hks => ?_) trivial
    rw [eq_nil_of_prefix_nil hks]
    exact hg
  | cons l ls ih =>
    have hl : A l := hls l mem_cons_self
    have hr : ∀ k ∈ ls, A k := fun k hk => hls k (mem_cons_of_mem l hk)
    have hst : (∀ ks, ks <+: l :: ls → G (run step s ks)) ↔
        ∀ ks, ks <+: ls → G (run step (step s l) ks) := by
      constructor
      · intro h ks hks
        exact h (l :: ks) (cons_prefix_cons.mpr ⟨rfl,hks⟩)
      intro h ks hks
      rcases prefix_cons_iff.mp hks with rfl | ⟨t,rfl,ht⟩
      · exact hg
      · exact h t ht
    rw [hst,Guarded,← hG s l hl hs]
    constructor
    · intro h
      have hgo : G (step s l) := h [] nil_prefix
      exact ⟨hgo,(ih (hI s l hl hs ((hG s l hl hs).mp hgo)) hgo hr).mp h⟩
    · rintro ⟨hgo,hgu⟩
      exact (ih (hI s l hl hs ((hG s l hl hs).mp hgo)) hgo hr).mpr hgu

lemma Guarded.exhausts {f : S → Int} {W : Int → Prop} {top : Int}
    (hst : ∀ s l, I s → ok s l → I (step s l) ∧ f s ≤ f (step s l) ∧
      (W (f s) → f s < f (step s l))) (hdo : ∀ {a b : Int}, a ≤ b → W b → W a)
    (ht : ∀ {r : Int}, W r → r < top) (hs : I s) (h : Guarded step ok s ls)
    (hlen : top ≤ f s + ls.length) : ¬ W (f (run step s ls)) := by
  have hd : ¬ W (f s) ∨ top ≤ f s + ls.length := .inr hlen
  clear hlen
  induction ls generalizing s with
  | nil =>
    rw [run_nil]
    intro hw
    rcases hd with hn | hle
    · exact hn hw
    have := ht hw
    rw [length_nil] at hle
    omega
  | cons l ls ih =>
    obtain ⟨hne,hle,hlt⟩ := hst s l hs h.1
    apply ih hne h.2
    by_cases hw : W (f s)
    · right
      have hra := hlt hw
      have hr := hd.resolve_left (not_not_intro hw)
      rw [length_cons] at hr
      omega
    · exact .inl fun hl => hw (hdo hle hl)

end Hokora.TransitionRuns
