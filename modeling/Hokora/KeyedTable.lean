import Mathlib.Tactic.Common
import Mathlib.Data.List.Nodup

/-!
# Tables with a primary key

Rows in the order of insertion, with distinct keys.
-/
namespace Hokora.KeyedTable
open List

structure Table {R K : Type} (key : R → K) where
  rows : List R
  keyed : (rows.map key).Nodup

namespace Table
variable {R K : Type} {key : R → K} {k : K} {q r : R} {t t' : Table key}

lemma ext {s : Table key} (h : s.rows = t.rows) : s = t := by
  cases s
  cases t
  cases h
  rfl

instance [DecidableEq R] : DecidableEq (Table key) := fun s t =>
  if h : s.rows = t.rows then isTrue (ext h) else isFalse fun e => h (congrArg rows e)

def empty : Table key := ⟨[],nodup_nil⟩

def singleton (r : R) : Table key := ⟨[r],nodup_singleton _⟩

instance : Inhabited (Table key) := ⟨empty⟩

variable [DecidableEq K]

def get? (t : Table key) (k : K) : Option R := t.rows.find? fun r => key r = k

def insert? (t : Table key) (r : R) : Option (Table key) :=
  if h : key r ∈ t.rows.map key then none
  else some ⟨t.rows ++ [r],by
    rw [map_append,nodup_append]
    refine ⟨t.keyed,nodup_singleton _,?_⟩
    intro a ha b hb hab
    rw [map_singleton,mem_singleton] at hb
    exact h (hb ▸ hab ▸ ha)⟩

def update (t : Table key) (k : K) (f : R → R) (hf : ∀ r, key (f r) = key r) : Table key :=
  ⟨t.rows.map fun r => if key r = k then f r else r,by
    have h : (t.rows.map fun r => if key r = k then f r else r).map key = t.rows.map key := by
      rw [map_map]
      apply map_congr_left
      intro r _
      simp only [Function.comp_apply]
      split_ifs
      · exact hf r
      · rfl
    rw [h]
    exact t.keyed⟩

def set (t : Table key) (r : R) : Table key :=
  if h : key r ∈ t.rows.map key then
    ⟨t.rows.map fun q => if key q = key r then r else q,by
      have hk : (t.rows.map fun q => if key q = key r then r else q).map key = t.rows.map key := by
        rw [map_map]
        apply map_congr_left
        intro q _
        simp only [Function.comp_apply]
        split_ifs with hq
        · exact hq.symm
        · rfl
      rw [hk]
      exact t.keyed⟩
  else (t.insert? r).getD t

def rewrite (t : Table key) (f : R → R) (hf : ∀ r, key (f r) = key r) : Table key :=
  ⟨t.rows.map f,by
    have h : (t.rows.map f).map key = t.rows.map key := by
      rw [map_map]
      exact map_congr_left fun r _ => hf r
    rw [h]
    exact t.keyed⟩

def select (t : Table key) (p : R → Bool) : Table key :=
  ⟨t.rows.filter p,t.keyed.sublist ((t.rows.filter_sublist).map key)⟩

def erase (t : Table key) (k : K) : Table key := t.select fun r => key r ≠ k

lemma get?_mem (h : t.get? k = some r) : r ∈ t.rows :=
  mem_of_find?_eq_some h

lemma get?_key (h : t.get? k = some r) : key r = k := by
  have := find?_some h
  simpa using this

lemma get?_eq_none : t.get? k = none ↔ k ∉ t.rows.map key := by
  simp [get?]

lemma get?_of_mem (h : r ∈ t.rows) : t.get? (key r) = some r := by
  cases hg : t.get? (key r) with
  | none => exact absurd (mem_map_of_mem h) (get?_eq_none.mp hg)
  | some q =>
    have hq := inj_on_of_nodup_map t.keyed (get?_mem hg) h (get?_key hg)
    rw [hq]

lemma get?_perm {s : Table key} (h : s.rows.Perm t.rows) (k : K) : s.get? k = t.get? k := by
  cases ht : t.get? k with
  | none =>
    rw [get?_eq_none] at ht ⊢
    intro hk
    exact ht ((h.map key).mem_iff.mp hk)
  | some r =>
    have hr : r ∈ s.rows := h.mem_iff.mpr (get?_mem ht)
    rw [← get?_key ht]
    exact get?_of_mem hr

lemma get?_isSome : (t.get? k).isSome ↔ k ∈ t.rows.map key := by
  rw [← not_iff_not,Option.not_isSome_iff_eq_none,get?_eq_none]

lemma insert?_eq_none : t.insert? r = none ↔ (t.get? (key r)).isSome := by
  rw [get?_isSome]
  unfold insert?
  split_ifs with h
  · simpa using h
  · simpa using h

lemma insert?_isSome : (∃ t', t.insert? r = some t') ↔ t.get? (key r) = none := by
  rw [← Option.isSome_iff_exists,← Option.not_isSome_iff_eq_none,← insert?_eq_none,
    Option.isSome_iff_ne_none]

lemma insert?_rows (h : t.insert? r = some t') : t'.rows = t.rows ++ [r] := by
  unfold insert? at h
  split_ifs at h
  cases h
  rfl

lemma insert?_fresh (h : t.insert? r = some t') : t.get? (key r) = none := insert?_isSome.mp ⟨t',h⟩

lemma get?_insert? (h : t.insert? r = some t') (k : K) :
    t'.get? k = if key r = k then some r else t.get? k := by
  have hf := insert?_fresh h
  simp only [get?,insert?_rows h,List.find?_append]
  split_ifs with hk
  · subst hk
    rw [show t.rows.find? (fun q => key q = key r) = none from hf]
    simp
  · simp [hk]

lemma get?_insert?_of_some (h : t.insert? r = some t') (hq : t.get? k = some q) :
    t'.get? k = some q := by
  rw [get?_insert? h,if_neg,hq]
  intro hk
  rw [← hk,insert?_fresh h] at hq
  cases hq

lemma eq_of_get?_insert? (h : t.insert? r = some t') (hn : t.get? k = none)
    (hq : t'.get? k = some q) : q = r := by
  rw [get?_insert? h] at hq
  split_ifs at hq
  · exact (Option.some.inj hq).symm
  · rw [hn] at hq
    cases hq

lemma update_rows (t : Table key) (k : K) (f : R → R) (hf : ∀ r, key (f r) = key r) :
    (t.update k f hf).rows = t.rows.map fun r => if key r = k then f r else r := rfl

variable {f : R → R}

lemma update_congr {g : R → R} {hf : ∀ r, key (f r) = key r} {hg : ∀ r, key (g r) = key r}
    (h : ∀ r, t.get? k = some r → f r = g r) : t.update k f hf = t.update k g hg := by
  apply ext
  apply map_congr_left
  intro r hr
  split_ifs with hk
  · exact h r (hk ▸ get?_of_mem hr)
  · rfl

lemma update_fixed (hf : ∀ r, key (f r) = key r) (h : ∀ r, t.get? k = some r → f r = r) :
    t.update k f hf = t := by
  apply ext
  conv_rhs => rw [← map_id t.rows]
  apply map_congr_left
  intro r hr
  split_ifs with hk
  · exact h r (hk ▸ get?_of_mem hr)
  · rfl

lemma get?_update (t : Table key) (k : K) (f : R → R) (hf : ∀ r, key (f r) = key r) (j : K) :
    (t.update k f hf).get? j = if j = k then (t.get? j).map f else t.get? j := by
  simp only [get?,update_rows,List.find?_map]
  have hp : ((fun r => decide (key r = j)) ∘ fun r => if key r = k then f r else r) =
      fun r => decide (key r = j) := by
    funext r
    simp only [Function.comp_apply]
    split_ifs
    · rw [hf]
    · rfl
  rw [hp]
  cases hg : t.rows.find? fun r => decide (key r = j) with
  | none => simp
  | some q =>
    have hq : key q = j := by simpa using find?_some hg
    simp only [Option.map_some,hq]
    split_ifs <;> rfl

lemma get?_update_none {j : K} (hf : ∀ r, key (f r) = key r) (h : t.get? j = none) :
    (t.update k f hf).get? j = none := by
  rw [get?_update,h]
  split_ifs <;> rfl

lemma get?_update_ne {j : K} (hf : ∀ r, key (f r) = key r) (h : j ≠ k) :
    (t.update k f hf).get? j = t.get? j := by
  rw [get?_update,if_neg h]

lemma get?_set (t : Table key) (r : R) (k : K) :
    (t.set r).get? k = if key r = k then some r else t.get? k := by
  unfold set
  split_ifs with h hk hk
  · subst hk
    obtain ⟨q,hq,hqk⟩ := mem_map.mp h
    have hr : r ∈ t.rows.map fun q => if key q = key r then r else q :=
      mem_map.mpr ⟨q,hq,if_pos hqk⟩
    exact get?_of_mem (t := ⟨_,_⟩) hr
  · simp only [get?,List.find?_map]
    have hp : ((fun q => decide (key q = k)) ∘ fun q => if key q = key r then r else q) =
        fun q => decide (key q = k) := by
      funext q
      simp only [Function.comp_apply]
      split_ifs with hq
      · rw [hq]
      · rfl
    rw [hp]
    cases hg : t.rows.find? fun q => decide (key q = k) with
    | none => rfl
    | some q =>
      have hq : key q = k := by simpa using find?_some hg
      rw [Option.map_some,if_neg fun e => hk (e.symm.trans hq)]
  all_goals
    obtain ⟨t',ht⟩ := insert?_isSome.mpr (get?_eq_none.mpr h)
    rw [ht,Option.getD_some,get?_insert? ht]
    simp [hk]

lemma get?_eq_some : t.get? k = some r ↔ r ∈ t.rows ∧ key r = k :=
  ⟨fun h => ⟨get?_mem h,get?_key h⟩,fun ⟨hr,hk⟩ => hk ▸ get?_of_mem hr⟩

variable {p : R → Bool}

lemma get?_select : (t.select p).get? k = (t.get? k).filter p := by
  ext r
  rw [Option.filter_eq_some_iff,get?_eq_some,get?_eq_some,select,mem_filter,and_right_comm]

lemma get?_erase (t : Table key) (k j : K) :
    (t.erase k).get? j = if j = k then none else t.get? j := by
  rw [erase,get?_select]
  cases hg : t.get? j with
  | none => simp
  | some r =>
    have hr := get?_key hg
    by_cases hj : j = k <;> simp [hr,hj]

lemma set_rows_of_none (h : t.get? (key r) = none) : (t.set r).rows = t.rows ++ [r] := by
  obtain ⟨t',ht⟩ := insert?_isSome.mpr h
  rw [set,dif_neg (get?_eq_none.mp h),ht,Option.getD_some,insert?_rows ht]

lemma set_rows (t : Table key) (r : R) : ∃ before after,
    t.rows = before ++ (t.get? (key r)).toList ++ after ∧
      (t.set r).rows = before ++ [r] ++ after := by
  cases hg : t.get? (key r) with
  | none =>
    refine ⟨t.rows,[],by simp,?_⟩
    rw [set_rows_of_none hg,append_nil]
  | some q =>
    have hk : key q = key r := get?_key hg
    obtain ⟨before,after,hr⟩ := append_of_mem (get?_mem hg)
    have hn : ((before ++ q :: after).map key).Nodup := hr ▸ t.keyed
    rw [map_append,map_cons,nodup_middle,← map_append] at hn
    have ho : ∀ p ∈ before ++ after, key p ≠ key r := by
      intro p hp he
      have hm : key p ∈ (before ++ after).map key := mem_map_of_mem hp
      exact (nodup_cons.mp hn).1 (hk.trans he.symm ▸ hm)
    have hs : ∀ l, l ⊆ before ++ after →
        (l.map fun p => if key p = key r then r else p) = l := fun l hl =>
      (map_congr_left fun p hp => if_neg (ho p (hl hp))).trans (map_id' l)
    have hm : key r ∈ t.rows.map key := get?_isSome.mp (by rw [hg]; rfl)
    refine ⟨before,after,by simp [hr],?_⟩
    rw [set,dif_pos hm]
    simp only [hr,map_append,map_cons,if_pos hk]
    rw [hs before (subset_append_left _ _),hs after (subset_append_right _ _)]
    simp

lemma mem_set_rows (h : q ∈ (t.set r).rows) : q ∈ t.rows ∨ q = r := by
  have hg : (t.set r).get? (key q) = some q := get?_of_mem h
  rw [get?_set] at hg
  split_ifs at hg
  · exact .inr (Option.some.inj hg).symm
  · exact .inl (get?_mem hg)

lemma filter_insert? (h : t.insert? r = some t') (hp : p r = false) :
    t'.rows.filter p = t.rows.filter p := by
  rw [insert?_rows h,filter_append]
  simp [hp]

lemma filter_update (hf : ∀ r, key (f r) = key r)
    (hp : ∀ r, t.get? k = some r → p r = false ∧ p (f r) = false) :
    (t.update k f hf).rows.filter p = t.rows.filter p := by
  have hm : ∀ r ∈ t.rows, key r = k → p r = false ∧ p (f r) = false := by
    intro r hr hk
    exact hp r (hk ▸ get?_of_mem hr)
  rw [update_rows]
  generalize t.rows = rows at hm
  induction rows with
  | nil => rfl
  | cons r rows ih =>
    have hre := ih fun q hq => hm q (mem_cons_of_mem r hq)
    simp only [map_cons,filter_cons]
    by_cases hk : key r = k
    · obtain ⟨h₁,h₂⟩ := hm r mem_cons_self hk
      simp [hk,h₁,h₂,hre]
    · simp [hk,hre]

end Table

end Hokora.KeyedTable
