import Hokora.Database

/-!
# The totals of the full-text index

The index has the message table as its external content, so a delete names a row and its old body,
and the index believes it: one entry and the tokens of that body go off its totals, whether the row
was ever indexed or not, and the statement raises if a total would fall below zero. Sealed rows and
rows without a body are not indexed, but their deletes are charged too. Only the two totals are
modelled; the tokenizer is a given count of tokens.
-/
namespace Hokora.FtsTotals
open Database

structure Totals where
  tokensOf : String → ℕ
  entries : ℕ
  tokens : ℕ

def Totals.weight (x : Totals) (m : Message) : ℕ := (m.body.map x.tokensOf).getD 0

def total (w : Message → ℕ) (ms : List Message) : ℕ := ms.foldr (fun m n => w m + n) 0

/-- The deletes of these rows go through, in any order. -/
def Totals.Covers (x : Totals) (ms : List Message) : Prop :=
  ms.length ≤ x.entries ∧ total x.weight ms ≤ x.tokens

instance (x : Totals) (ms : List Message) : Decidable (x.Covers ms) :=
  inferInstanceAs (Decidable (_ ∧ _))

def Totals.without (x : Totals) (ms : List Message) : Totals :=
  { x with entries := x.entries - ms.length, tokens := x.tokens - total x.weight ms }

/-- The condition of the triggers on inserts and updates. -/
def indexed (m : Message) : Bool := m.body.isSome && m.encryptedBody.isNone

variable {x : Totals} {ms : List Message} {p q : Message → Bool} {w : Message → ℕ}

lemma without_weight : (x.without ms).weight = x.weight := rfl

lemma total_one : total (fun _ => 1) ms = ms.length := by
  induction ms with
  | nil => rfl
  | cons m ms ih => exact (congrArg (1 + ·) ih).trans (Nat.add_comm ..)

lemma total_or : total w (ms.filter fun m => p m || q m) =
    total w (ms.filter p) + total w ((ms.filter fun m => !p m).filter q) := by
  induction ms with
  | nil => rfl
  | cons m ms ih =>
    unfold total at *
    cases hp : p m <;> cases hq : q m <;> simp [hp,hq,-List.filter_filter] <;> omega

lemma length_or : (ms.filter fun m => p m || q m).length =
    (ms.filter p).length + ((ms.filter fun m => !p m).filter q).length := by
  rw [← total_one,total_or,total_one,total_one]

lemma covers_or : x.Covers (ms.filter fun m => p m || q m) ↔ x.Covers (ms.filter p) ∧
    (x.without (ms.filter p)).Covers ((ms.filter fun m => !p m).filter q) := by
  have hl := @length_or ms p q
  have ht := @total_or ms p q x.weight
  unfold Totals.Covers
  rw [without_weight]
  simp only [Totals.without]
  omega

lemma without_or : (x.without (ms.filter p)).without ((ms.filter fun m => !p m).filter q) =
    x.without (ms.filter fun m => p m || q m) := by
  unfold Totals.without
  rw [length_or,total_or,Nat.sub_add_eq,Nat.sub_add_eq]
  rfl

lemma total_sublist {ms' : List Message} (h : ms'.Sublist ms) : total w ms' ≤ total w ms := by
  induction h with
  | slnil => exact Nat.le_refl _
  | cons m _ ih => exact ih.trans (Nat.le_add_left ..)
  | cons_cons m _ ih => exact Nat.add_le_add_left ih _

lemma Totals.Covers.mono {ms' : List Message} (h : x.Covers ms) (hs : ms'.Sublist ms) :
    x.Covers ms' :=
  ⟨hs.length_le.trans h.1,(total_sublist hs).trans h.2⟩

end Hokora.FtsTotals
