import Mathlib.Data.Int.Order.Basic
import Mathlib.Data.List.Basic
import Mathlib.Tactic.Common

/-!
# Cumulative acknowledgement

A number stands for all that is below it.
-/
namespace Hokora.CumulativeAck

section Settled
variable {A : Type*} {items items' settled settled' : A → Prop} {rank : A → Option ℕ} {s t : ℤ}

/-- Every item that is numbered at most `s` is settled. -/
def SettledUpTo (items : A → Prop) (rank : A → Option ℕ) (settled : A → Prop) (s : ℤ) : Prop :=
  ∀ a, items a → ∀ q, rank a = some q → (q : ℤ) ≤ s → settled a

lemma SettledUpTo.of_le (h : SettledUpTo items rank settled s) (hts : t ≤ s) :
    SettledUpTo items rank settled t :=
  fun a ha q hq hqt => h a ha q hq (Int.le_trans hqt hts)

lemma SettledUpTo.mono (h : SettledUpTo items rank settled s)
    (hi : ∀ a, items' a → items a ∨ ∃ q, rank a = some q ∧ s < q)
    (hs : ∀ a, settled a → settled' a) : SettledUpTo items' rank settled' s := by
  intro a ha q hq hqs
  rcases hi a ha with ho | ⟨q',hq',hlt⟩
  · exact hs a (h a ho q hq hqs)
  rw [hq] at hq'
  cases hq'
  exact absurd hqs (Int.not_le.mpr hlt)

lemma SettledUpTo.extend (h : SettledUpTo items rank settled s)
    (hb : ∀ a, items a → ∀ q, rank a = some q → s < q → (q : ℤ) ≤ t → settled a) :
    SettledUpTo items rank settled t := by
  intro a ha q hq hqt
  by_cases hqs : (q : ℤ) ≤ s
  · exact h a ha q hq hqs
  · exact hb a ha q hq (Int.not_le.mp hqs) hqt

end Settled

lemma rel_of_not_mem_take {A : Type*} {r : A → A → Prop} {l : List A} (hl : l.Pairwise r)
    {k : ℕ} {a b : A} (ha : a ∈ l) (hn : a ∉ l.take k) (hb : b ∈ l.take k) : r b a := by
  rw [← List.take_append_drop k l] at hl ha
  have hd : a ∈ l.drop k := (List.mem_append.mp ha).resolve_left hn
  exact (List.pairwise_append.mp hl).2.2 b hb a hd

end Hokora.CumulativeAck
