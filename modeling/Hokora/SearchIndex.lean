import Hokora.HandlerTransactions
import Hokora.Maintenance

/-!
# The full-text index

The three triggers on a table of row ids and texts. How a text is split into words is left out.
-/
namespace Hokora.SearchIndex
open Database HandlerTransactions KeyedTable List Maintenance PyValue Repositories TransitionRuns
open Table (get?_key get?_mem insert?_rows update_rows)

structure Row where
  rowid : ℕ
  message : Message

def Row.msgHash (r : Row) : String := r.message.msgHash

structure Indexed where
  messages : Table Row.msgHash := .empty
  messagesFts : List (ℕ × String) := []

def nextRowid : List Row → ℕ
  | [] => 1
  | r :: rs => if nextRowid rs ≤ r.rowid then r.rowid + 1 else nextRowid rs

def searchable (m : Message) : Option String :=
  match m.encryptedBody with
  | none => m.body
  | some _ => none

def ftsDelete (fts : List (ℕ × String)) (rowid : ℕ) (body : Option String) : List (ℕ × String) :=
  fts.filter fun x => ¬ (x.1 = rowid ∧ some x.2 = body)

def messagesAi (fts : List (ℕ × String)) (new : Row) : List (ℕ × String) :=
  match searchable new.message with
  | some body => fts ++ [(new.rowid, body)]
  | none => fts

def messagesAd (fts : List (ℕ × String)) (old : Row) : List (ℕ × String) :=
  ftsDelete fts old.rowid old.message.body

def messagesAu (fts : List (ℕ × String)) (old new : Row) : List (ℕ × String) :=
  match searchable new.message with
  | some body => ftsDelete fts old.rowid old.message.body ++ [(new.rowid, body)]
  | none => fts

inductive Change where
  | insert (m : Message)
  | update (msgHash : String) (f : Message → Message) (hf : ∀ m, (f m).msgHash = m.msgHash)
  | delete (msgHash : String)

def Row.rewrite (f : Message → Message) (r : Row) : Row := { r with message := f r.message }

variable {f : Message → Message}

lemma Row.rewrite_msgHash (hf : ∀ m, (f m).msgHash = m.msgHash) (r : Row) :
    (r.rewrite f).msgHash = r.msgHash := hf r.message

def change (s : Indexed) : Change → Indexed
  | .insert m =>
    let new : Row := ⟨nextRowid s.messages.rows,m⟩
    match s.messages.insert? new with
    | some messages => ⟨messages,messagesAi s.messagesFts new⟩
    | none => s
  | .update msgHash f hf =>
    match s.messages.get? msgHash with
    | some old =>
      ⟨s.messages.update msgHash (Row.rewrite f) (Row.rewrite_msgHash hf),
        messagesAu s.messagesFts old (old.rewrite f)⟩
    | none => s
  | .delete msgHash =>
    match s.messages.get? msgHash with
    | some old => ⟨s.messages.erase msgHash,messagesAd s.messagesFts old⟩
    | none => s

/-- The index holds exactly the texts of the rows that are to be found. -/
def Consistent (s : Indexed) : Prop :=
  ∀ x, x ∈ s.messagesFts ↔ ∃ r ∈ s.messages.rows, r.rowid = x.1 ∧ searchable r.message = some x.2

/-- No rowid occurs twice. -/
def Numbered (s : Indexed) : Prop :=
  ∀ r ∈ s.messages.rows, ∀ q ∈ s.messages.rows, r.rowid = q.rowid → r = q

/-- An update leaves a row that is to be found so. -/
def Keeps (s : Indexed) : Change → Prop
  | .insert _ => True
  | .update msgHash f _ =>
    ∀ r ∈ s.messages.get? msgHash,
      (searchable r.message).isSome = true → (searchable (f r.message)).isSome = true
  | .delete _ => True

section Rows
variable {s : Indexed} {r : Row} {msgHash : String}

lemma lt_nextRowid {rows : List Row} (h : r ∈ rows) : r.rowid < nextRowid rows := by
  induction rows with
  | nil => cases h
  | cons q rs ih =>
    unfold nextRowid
    rcases mem_cons.mp h with rfl | hr
    · split_ifs with hle <;> omega
    · have := ih hr
      split_ifs with hle <;> omega

lemma eq_of_msgHash {q : Row} (hr : s.messages.get? msgHash = some r)
    (hq : q ∈ s.messages.rows) (h : q.msgHash = msgHash) : q = r := by
  have hg := Table.get?_of_mem hq
  rw [h,hr] at hg
  exact (Option.some.inj hg).symm

lemma mem_erase (hr : s.messages.get? msgHash = some r) {q : Row} :
    q ∈ (s.messages.erase msgHash).rows ↔ q ∈ s.messages.rows ∧ q ≠ r := by
  rw [Table.erase,Table.select,mem_filter,decide_eq_true_eq]
  refine and_congr_right fun hq => not_congr ⟨eq_of_msgHash hr hq,?_⟩
  rintro rfl
  exact get?_key hr

lemma mem_update (hf : ∀ m, (f m).msgHash = m.msgHash) (hr : s.messages.get? msgHash = some r)
    {q : Row} :
    q ∈ (s.messages.update msgHash (Row.rewrite f) (Row.rewrite_msgHash hf)).rows ↔
      q = r.rewrite f ∨ q ∈ s.messages.rows ∧ q ≠ r := by
  rw [update_rows,mem_map]
  constructor
  · rintro ⟨p,hp,rfl⟩
    split_ifs with h
    · exact .inl (congrArg _ (eq_of_msgHash hr hp h))
    refine .inr ⟨hp,?_⟩
    rintro rfl
    exact h (get?_key hr)
  · rintro (rfl | ⟨hq,hne⟩)
    · exact ⟨r,get?_mem hr,if_pos (get?_key hr)⟩
    · exact ⟨q,hq,if_neg fun h => hne (eq_of_msgHash hr hq h)⟩

end Rows

section Index
variable {s : Indexed} {r : Row} {msgHash : String}

lemma searchable_body {m : Message} {body : String} (h : searchable m = some body) :
    m.body = some body := by
  unfold searchable at h
  split at h
  · exact h
  · cases h

lemma mem_ftsDelete (hs : Consistent s) (hn : Numbered s) (hr : r ∈ s.messages.rows)
    {x : ℕ × String} :
    x ∈ ftsDelete s.messagesFts r.rowid r.message.body ↔
      ∃ q ∈ s.messages.rows, q ≠ r ∧ q.rowid = x.1 ∧ searchable q.message = some x.2 := by
  rw [ftsDelete,mem_filter,decide_eq_true_eq,hs]
  constructor
  · rintro ⟨⟨q,hq,hid,ht⟩,hno⟩
    refine ⟨q,hq,?_,hid,ht⟩
    rintro rfl
    exact hno ⟨hid.symm,(searchable_body ht).symm⟩
  · rintro ⟨q,hq,hne,hid,ht⟩
    refine ⟨⟨q,hq,hid,ht⟩,fun h => hne ?_⟩
    exact hn q hq r hr (hid.trans h.1)

lemma insert_consistent (hs : Consistent s) {m : Message} : Consistent (change s (.insert m)) := by
  simp only [change]
  split
  next messages hi =>
    intro x
    simp only [insert?_rows hi,mem_append,mem_singleton,or_and_right,
      exists_or,exists_eq_left,← hs x]
    unfold messagesAi
    split
    next body hb =>
      rw [mem_append,mem_singleton,hb]
      refine or_congr_right ?_
      constructor
      · rintro rfl
        exact ⟨rfl,rfl⟩
      · rintro ⟨hid,ht⟩
        exact Prod.ext hid.symm (Option.some.inj ht).symm
    next hn => simp [hn]
  · exact hs

lemma delete_consistent (hs : Consistent s) (hn : Numbered s) :
    Consistent (change s (.delete msgHash)) := by
  simp only [change]
  split
  next old ho =>
    intro x
    rw [messagesAd,mem_ftsDelete hs hn (get?_mem ho)]
    simp [mem_erase ho,and_assoc]
  · exact hs

lemma update_consistent (hs : Consistent s) (hn : Numbered s)
    (hf : ∀ m, (f m).msgHash = m.msgHash) :
    Consistent (change s (.update msgHash f hf)) ↔ Keeps s (.update msgHash f hf) := by
  cases ho : s.messages.get? msgHash with
  | none => simp [change,Keeps,ho,hs]
  | some r =>
    have hr := get?_mem ho
    have ha : change s (.update msgHash f hf) =
        ⟨s.messages.update msgHash (Row.rewrite f) (Row.rewrite_msgHash hf),
          messagesAu s.messagesFts r (r.rewrite f)⟩ := by
      simp [change,ho]
    have hfo : ∀ x : ℕ × String, (∃ q ∈ (change s (.update msgHash f hf)).messages.rows,
        q.rowid = x.1 ∧ searchable q.message = some x.2) ↔
        (r.rowid = x.1 ∧ searchable (f r.message) = some x.2) ∨
          ∃ q ∈ s.messages.rows, q ≠ r ∧ q.rowid = x.1 ∧ searchable q.message = some x.2 := by
      intro x
      simp only [ha,mem_update hf ho,or_and_right,exists_or,exists_eq_left,and_assoc]
      rfl
    have hk : Keeps s (.update msgHash f hf) ↔
        ((searchable r.message).isSome = true → (searchable (f r.message)).isSome = true) := by
      simp [Keeps,ho]
    rw [hk]
    unfold Consistent
    simp only [hfo]
    rw [ha]
    cases hnew : searchable (f r.message) with
    | some body =>
      refine iff_of_true (fun x => ?_) fun _ => rfl
      have hft : messagesAu s.messagesFts r (r.rewrite f) =
          ftsDelete s.messagesFts r.rowid r.message.body ++ [(r.rowid, body)] := by
        simp [messagesAu,Row.rewrite,hnew]
      rw [hft,mem_append,mem_ftsDelete hs hn hr,mem_singleton,or_comm]
      refine or_congr_left ?_
      rw [Prod.ext_iff,Option.some.injEq,eq_comm,@eq_comm _ x.2]
    | none =>
      have hft : messagesAu s.messagesFts r (r.rewrite f) = s.messagesFts := by
        simp [messagesAu,Row.rewrite,hnew]
      simp only [hft,reduceCtorEq,and_false,false_or,Option.isSome_none,Bool.false_eq_true,
        imp_false,Bool.not_eq_true,Option.isSome_eq_false_iff,Option.isNone_iff_eq_none]
      constructor
      · intro h
        by_contra hso
        obtain ⟨body,hb⟩ := Option.ne_none_iff_exists'.mp hso
        have hm := (hs (r.rowid, body)).mpr ⟨r,hr,rfl,hb⟩
        obtain ⟨q,hq,hne,hid,-⟩ := (h (r.rowid, body)).mp hm
        exact hne (hn q hq r hr hid)
      intro hno x
      rw [hs]
      constructor
      · rintro ⟨q,hq,hid,ht⟩
        refine ⟨q,hq,?_,hid,ht⟩
        rintro rfl
        rw [hno] at ht
        cases ht
      · rintro ⟨q,hq,-,hid,ht⟩
        exact ⟨q,hq,hid,ht⟩

lemma change_numbered (hn : Numbered s) {c : Change} : Numbered (change s c) := by
  cases c with
  | insert m =>
    simp only [change]
    split
    next messages hi =>
      intro r hr q hq hid
      simp only [insert?_rows hi,mem_append,mem_singleton] at hr hq
      rcases hr with hr | rfl <;> rcases hq with hq | rfl
      · exact hn r hr q hq hid
      · exact absurd hid (lt_nextRowid hr).ne
      · exact absurd hid (lt_nextRowid hq).ne'
      · rfl
    · exact hn
  | update msgHash f hf =>
    simp only [change]
    split
    next old ho =>
      have hm := get?_mem ho
      intro r hr q hq hid
      rw [mem_update hf ho] at hr hq
      rcases hr with rfl | ⟨hr,hne⟩ <;> rcases hq with rfl | ⟨hq,hne'⟩
      · rfl
      · exact absurd (hn old hm q hq hid).symm hne'
      · exact absurd (hn r hr old hm hid) hne
      · exact hn r hr q hq hid
    · exact hn
  | delete msgHash =>
    simp only [change]
    split
    next old ho =>
      intro r hr q hq hid
      rw [mem_erase ho] at hr hq
      exact hn r hr.1 q hq.1 hid
    · exact hn

end Index

/-- In every state of a run the index is consistent exactly if no update hides a row. -/
theorem index_consistent_iff (cs : List Change) :
    (∀ ks, ks <+: cs → Consistent (run change {} ks)) ↔ Guarded change Keeps {} cs := by
  have hco : ∀ s c, Numbered s ∧ Consistent s → (Consistent (change s c) ↔ Keeps s c) := by
    rintro s c ⟨hn,hs⟩
    cases c with
    | insert m => exact iff_of_true (insert_consistent hs) trivial
    | update msgHash f hf => exact update_consistent hs hn hf
    | delete msgHash => exact iff_of_true (delete_consistent hs hn) trivial
  have hst : Consistent {} := fun x => by simp [Table.empty]
  refine always_iff_guarded (I := fun s => Numbered s ∧ Consistent s) (A := fun _ => True) ?_ ?_
    ⟨fun _ hr => (not_mem_nil hr).elim,hst⟩ hst fun _ _ => trivial
  · intro s c _ hs hc
    exact ⟨change_numbered hs.1,(hco s c hs).mpr hc⟩
  · intro s c _ hs
    exact hco s c hs

section Shows
variable {s : Indexed} {st : Store}

end Shows

def note : Message :=
  { msgHash := "n", channelId := "board", senderHash := some "alice", timestamp := .fin 1,
    type := Constants.msgText, body := some "meet at nine" }

def withdrawal : List Change :=
  [.insert note, .update "n" (flushDelete note "alice") fun _ => rfl]

theorem deleted_text_found : (∀ r ∈ (run change {} withdrawal).messages.rows,
        r.message.deleted = true ∧ r.message.body = none) ∧
      (1, "meet at nine") ∈ (run change {} withdrawal).messagesFts ∧
      ¬ Consistent (run change {} withdrawal) := by
  have hro : ∀ r ∈ (run change {} withdrawal).messages.rows,
      r.message.deleted = true ∧ r.message.body = none := by
    decide +kernel
  have hf : (1, "meet at nine") ∈ (run change {} withdrawal).messagesFts := by decide +kernel
  refine ⟨hro,hf,fun h => ?_⟩
  obtain ⟨r,hr,-,ht⟩ := (h _).mp hf
  have hb := searchable_body ht
  rw [(hro r hr).2] at hb
  cases hb

end Hokora.SearchIndex
