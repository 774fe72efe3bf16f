import Mathlib.Algebra.Order.Ring.Rat
import Mathlib.Tactic.Linarith

/-!
# The newest entries of a list

A list that is cut to its newest entries after each new one, and one whose entries also expire. Both
are computed from the list of all entries that were ever added.
-/
namespace Hokora.Windows

open List
variable {A : Type} {n : ℕ} {xs ys : List A} {x : A}

def keepNewest (cap : ℕ) (entries : List A) : List A :=
  entries.drop (entries.length - cap)

lemma mem_keepNewest (h : x ∈ keepNewest n xs) : x ∈ xs := mem_of_mem_drop h

lemma keepNewest_concat : keepNewest n (keepNewest n xs ++ [x]) = keepNewest n (xs ++ [x]) := by
  have hs : keepNewest n xs ++ [x] = (xs ++ [x]).drop (xs.length - n) :=
    (drop_append_of_le_length (Nat.sub_le ..)).symm
  rw [hs,keepNewest,keepNewest,drop_drop,length_drop,length_append, length_singleton]
  congr 1
  omega

/-- Elements that a filter drops make no difference in front of the newest. -/
lemma filter_keepNewest_append {p : A → Bool} (h : ∀ x ∈ xs, p x = false) :
    (keepNewest n (xs ++ ys)).filter p = (keepNewest n ys).filter p := by
  have hn : (xs.drop (xs.length + ys.length - n)).filter p = [] :=
    filter_eq_nil_iff.mpr fun x hx => by simp [h x (mem_of_mem_drop hx)]
  rw [keepNewest,keepNewest,length_append,drop_append,filter_append,hn, nil_append]
  congr 2
  omega

variable {f : A → ℚ} {t : ℚ}

lemma dropWhile_eq_filter (h : xs.Pairwise fun x y => f x ≤ f y) :
    xs.dropWhile (fun x => f x < t) = xs.filter fun x => t ≤ f x := by
  induction xs with
  | nil => rfl
  | cons x xs ih =>
    obtain ⟨hx,hxs⟩ := pairwise_cons.mp h
    by_cases ht : f x < t
    · simp [ht,ih hxs]
    · have hall : ∀ y ∈ xs, t ≤ f y := fun y hy => (not_lt.mp ht).trans (hx y hy)
      simp [ht,not_lt.mp ht,filter_eq_self.mpr fun y hy => decide_eq_true (hall y hy)]

/-- Of the newest `n`, those no older than `r` before the last. -/
def survivors (f : A → ℚ) (n : ℕ) (r : ℚ) (xs : List A) : List A :=
  (keepNewest n xs).filter fun x => xs.getLast?.all fun y => f y - r ≤ f x

lemma survivors_concat {r : ℚ} (h : (xs ++ [x]).Pairwise fun x y => f x ≤ f y) :
    (keepNewest n (survivors f n r xs ++ [x])).dropWhile (fun y => f y < f x - r) =
      survivors f n r (xs ++ [x]) := by
  obtain ⟨hxs,-,hl⟩ := pairwise_append.mp h
  have hle : ∀ y ∈ xs, f y ≤ f x := fun y hy => hl y hy x (mem_singleton_self x)
  have hall : (survivors f n r (xs ++ [x])) =
      (keepNewest n (xs ++ [x])).filter fun y => f x - r ≤ f y := by
    simp [survivors]
  have hsu : (keepNewest n (survivors f n r xs ++ [x])).Sublist (xs ++ [x]) :=
    (drop_sublist ..).trans (((filter_sublist.trans (drop_sublist ..))).append_right [x])
  rw [dropWhile_eq_filter (h.sublist hsu),hall,← @keepNewest_concat A n xs x]
  cases hy : xs.getLast? with
  | none => simp [List.getLast?_eq_none_iff.mp hy,survivors,keepNewest]
  | some y =>
    have hyx : f y ≤ f x := hle y (mem_of_getLast? hy)
    have hk : (keepNewest n xs).Pairwise fun x y => f x ≤ f y := hxs.sublist (drop_sublist ..)
    have hs : survivors f n r xs = (keepNewest n xs).dropWhile fun z => f z < f y - r := by
      rw [dropWhile_eq_filter hk,survivors,hy]
      rfl
    have ho : ∀ z ∈ (keepNewest n xs).takeWhile (fun z => f z < f y - r),
        decide (f x - r ≤ f z) = false := by
      intro z hz
      have hlt := of_decide_eq_true (all_eq_true.mp all_takeWhile z hz)
      exact decide_eq_false (by linarith)
    rw [← filter_keepNewest_append ho,← append_assoc,hs,takeWhile_append_dropWhile]

end Hokora.Windows
