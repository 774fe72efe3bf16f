import Hokora.CursorPaging
import Hokora.PyValue

/-!
# The client side of a mirror

How a page of history moves the cursor of a mirror.
-/
namespace Hokora.MirrorClient
open CursorPaging List PyValue

def messageSeq (d : Val) : Py ℤ := do
  let seq ← d.get "seq" (.int 0)
  if seq.truthy = false then pure 0
  else match seq.int? with
  | some n => pure n
  | none => .error .typeError

def advance (cursor seq : ℤ) : ℤ := if seq ≠ 0 ∧ cursor < seq then seq else cursor

structure Scan where
  cursor : ℤ
  ingested : List Val := []
  completed : Bool := true

def scan (cursor : ℤ) : List Val → Scan
  | [] => { cursor := cursor }
  | d :: ds =>
    match messageSeq d with
    | .error _ => { cursor := cursor, completed := false }
    | .ok seq =>
      let rest := scan (advance cursor seq) ds
      { rest with ingested := d :: rest.ingested }

structure HistoryData where
  messages : List Val
  hasMore : Bool := false

structure Handled where
  cursor : ℤ
  ingested : List Val
  persist : Option ℤ
  again : Bool

def handleResponse (cursor : ℤ) (resp : HistoryData) : Handled :=
  let s := scan cursor resp.messages
  { cursor := s.cursor
    ingested := s.ingested
    persist := if s.completed ∧ resp.messages ≠ [] then some s.cursor else none
    again := s.completed && resp.hasMore }

lemma le_advance {cursor seq : ℤ} : cursor ≤ advance cursor seq := by
  unfold advance
  split_ifs <;> omega

lemma scan_le (cursor : ℤ) (ds : List Val) : cursor ≤ (scan cursor ds).cursor := by
  induction ds generalizing cursor with
  | nil => exact Int.le_refl cursor
  | cons d ds ih =>
    unfold scan
    cases messageSeq d with
    | error e => exact Int.le_refl cursor
    | ok seq => exact Int.le_trans le_advance (ih _)

lemma scan_cursor_cases (cursor : ℤ) (ds : List Val) :
    (scan cursor ds).cursor = cursor ∨ ∃ d ∈ ds, messageSeq d = .ok (scan cursor ds).cursor := by
  induction ds generalizing cursor with
  | nil => exact .inl rfl
  | cons d ds ih =>
    unfold scan
    cases hs : messageSeq d with
    | error e => exact .inl rfl
    | ok seq =>
      rcases ih (advance cursor seq) with hk | ⟨x,hx,hn⟩
      · rw [hk]
        by_cases hm : seq ≠ 0 ∧ cursor < seq
        · exact .inr ⟨d,mem_cons_self,by rw [hs,advance,if_pos hm]⟩
        · exact .inl (by rw [advance,if_neg hm])
      · exact .inr ⟨x,mem_cons_of_mem d hx,hn⟩

lemma scan_ingested (cursor : ℤ) (ds : List Val) : (scan cursor ds).ingested ⊆ ds := by
  induction ds generalizing cursor with
  | nil => exact List.Subset.refl []
  | cons d ds ih =>
    unfold scan
    cases messageSeq d with
    | error e => exact nil_subset _
    | ok seq => exact cons_subset_cons d (ih _)

lemma scan_completed {ds : List Val} (h : ∀ d ∈ ds, ∃ n, messageSeq d = .ok n) (cursor : ℤ) :
    (scan cursor ds).ingested = ds ∧ (scan cursor ds).completed = true := by
  induction ds generalizing cursor with
  | nil => exact ⟨rfl,rfl⟩
  | cons d ds ih =>
    obtain ⟨n,hn⟩ := h d mem_cons_self
    have hr := ih (fun x hx => h x (mem_cons_of_mem d hx)) (advance cursor n)
    simp only [scan,hn]
    exact ⟨by rw [hr.1],hr.2⟩

lemma handleResponse_persist {cursor c : ℤ} {resp : HistoryData}
    (h : (handleResponse cursor resp).persist = some c) :
    c = (scan cursor resp.messages).cursor := by
  unfold handleResponse at h
  simp only at h
  split_ifs at h
  exact (Option.some.inj h).symm

lemma scan_cursor_raise {A : Type} {key : A → ℤ} {entry : A → Val} {xs : List A}
    (h : ∀ x ∈ xs, messageSeq (entry x) = .ok (key x) ∧ key x ≠ 0) (cursor : ℤ) :
    (scan cursor (xs.map entry)).cursor = raise key cursor xs := by
  induction xs generalizing cursor with
  | nil => rfl
  | cons x xs ih =>
    obtain ⟨hs,hp⟩ := h x mem_cons_self
    have hr := ih (fun y hy => h y (mem_cons_of_mem x hy)) (advance cursor (key x))
    have ha : advance cursor (key x) = if cursor < key x then key x else cursor := by
      simp [advance,hp]
    simp only [map_cons,scan,hs]
    rw [hr,ha]
    rfl

end Hokora.MirrorClient
