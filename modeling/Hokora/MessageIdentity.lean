import Mathlib
import Hokora.WriteAuthorisation

/-!
# What a message hash identifies

The hash is taken over the fields of an envelope joined by colons, and a message whose hash is known
is dropped. The digest and the text of a timestamp are parameters, taken to be injective; which
fields the text gives back depends on the colons in the free ones. The whole of Mathlib is imported
for `Int.repr_inj`, which no smaller module of it brings.
-/
namespace Hokora.MessageIdentity
open Constants Database KeyedTable List MessageProcessor PyValue RateLimit Repositories
open WriteAuthorisation (Mutation ingest_of_not_mutation)

def colons (s : String) : ℕ := s.toList.count ':'

/-- The fields that the hash is meant to bind. -/
def SameContent (e₁ e₂ : MessageEnvelope) : Prop :=
  e₁.channelId = e₂.channelId ∧ e₁.senderHash = e₂.senderHash ∧ e₁.timestamp = e₂.timestamp ∧
    e₁.type = e₂.type ∧ e₁.body.getD "" = e₂.body.getD "" ∧ e₁.replyTo.getD "" = e₂.replyTo.getD ""

def SameColons (e₁ e₂ : MessageEnvelope) : Prop :=
  colons e₁.channelId = colons e₂.channelId ∧ colons e₁.senderHash = colons e₂.senderHash ∧
    colons (e₁.body.getD "") = colons (e₂.body.getD "")

structure Faithful (prim : Primitives) : Prop where
  sha256 : Function.Injective prim.sha256Hex
  floatStr : Function.Injective prim.floatStr
  floatStr_colons : ∀ t, colons (prim.floatStr t) = 0

variable {prim : Primitives} {mp : Processor} {m : Moment} {lim : Option RateLimiter} {st : Store}
  {row : Message} {e₁ e₂ : MessageEnvelope}

lemma append_sep_inj {A : Type} [DecidableEq A] {sep : A} {a b a' b' : List A}
    (h : a ++ sep :: b = a' ++ sep :: b') (hc : a.count sep = a'.count sep) : a = a' ∧ b = b' := by
  -- One of the two first parts is a proper extension of the other, or they are equal.
  have hno : ∀ {x y t : List A} {u v : List A}, y = x ++ t → sep :: u = t ++ sep :: v →
      x.count sep = y.count sep → t = [] := by
    intro x y t u v hy ht hco
    cases t with
    | nil => rfl
    | cons c t =>
      cases ht
      rw [hy,count_append,count_cons_self] at hco
      omega
  obtain ⟨t,ha,hb⟩ | ⟨t,ha,hb⟩ := append_eq_append_iff.mp h
  · cases hno ha hb hc
    simp_all
  · cases hno ha hb hc.symm
    simp_all

lemma join_inj {s t s' t' : String} (h : s ++ (":" ++ t) = s' ++ (":" ++ t'))
    (hc : colons s = colons s') : s = s' ∧ t = t' := by
  have hl := congrArg String.toList h
  simp only [String.toList_append] at hl
  obtain ⟨hs,ht⟩ := append_sep_inj hl hc
  exact ⟨String.toList_inj.mp hs,String.toList_inj.mp ht⟩

lemma colons_toString {n : ℤ} : colons (toString n) = 0 := by
  have hn : ∀ k : ℕ, ':' ∉ (Nat.repr k).toList := by
    intro k hk
    rw [Nat.repr_eq_ofList_toDigits,String.toList_ofList] at hk
    exact absurd (Nat.isDigit_of_mem_toDigits (by decide) (by decide) hk) (by decide)
  rw [colons,count_eq_zero,Int.toString_eq_repr,Int.repr_eq_if]
  split_ifs
  · exact hn _
  · rw [String.toList_append,mem_append,not_or]
    exact ⟨by decide,hn _⟩

lemma sameContent_iff (hf : Faithful prim) (h : e₁.hashText prim = e₂.hashText prim) :
    SameContent e₁ e₂ ↔ SameColons e₁ e₂ := by
  constructor
  · rintro ⟨hc,hs,-,-,hb,-⟩
    exact ⟨congrArg colons hc,congrArg colons hs,congrArg colons hb⟩
  rintro ⟨hc,hs,hb⟩
  simp only [MessageEnvelope.hashText,String.append_assoc] at h
  obtain ⟨h₁,h⟩ := join_inj h hc
  obtain ⟨h₂,h⟩ := join_inj h hs
  obtain ⟨h₃,h⟩ := join_inj h (by rw [hf.floatStr_colons,hf.floatStr_colons])
  obtain ⟨h₄,h⟩ := join_inj h (by rw [colons_toString,colons_toString])
  obtain ⟨h₅,h₆⟩ := join_inj h hb
  rw [Int.toString_eq_repr,Int.toString_eq_repr,Int.repr_inj] at h₄
  exact ⟨h₁,h₂,hf.floatStr h₃,h₄,h₅,h₆⟩

lemma computeHash_of_dropped (ht : ¬ Mutation e₂.type)
    (hr : MessageRepo.getByHash st (e₁.computeHash prim) = some row)
    (hd : (ingest prim mp m lim st e₂).2 = .ok (row, st)) :
    e₁.computeHash prim = e₂.computeHash prim := by
  have hk : row.msgHash = e₁.computeHash prim := Table.get?_key hr
  obtain ⟨channel,env',⟨displayName,mentions,rfl⟩,hs⟩ :=
    ingest_of_not_mutation ht hd
  obtain ⟨hdu,-⟩ | ⟨seq,threadSeq,st₁,b,t,-,-,-,-,hn,-⟩ := storeMessage_stored hs
  · exact hk.symm.trans (Table.get?_key hdu)
  · exact hk.symm.trans (congrArg Message.msgHash hn)

/-- Equal hash texts come from equal fields exactly when the colons are equally distributed,
and so does a drop as a duplicate. -/
theorem message_identity_iff (hf : Faithful prim) :
    (e₁.hashText prim = e₂.hashText prim → (SameContent e₁ e₂ ↔ SameColons e₁ e₂)) ∧
      (¬ Mutation e₂.type → MessageRepo.getByHash st (e₁.computeHash prim) = some row →
        (ingest prim mp m lim st e₂).2 = .ok (row, st) →
          (SameContent e₁ e₂ ↔ SameColons e₁ e₂)) := by
  refine ⟨sameContent_iff hf,fun ht hr hd => sameContent_iff hf ?_⟩
  exact hf.sha256 (computeHash_of_dropped ht hr hd)

def floatIndex : FloatVal → ℕ
  | .fin q => Nat.pair (Nat.pair q.num.toNat (-q.num).toNat) q.den + 3
  | .nan => 0
  | .posInf => 1
  | .negInf => 2

def letterPrimitives : Primitives where
  sha256Hex := id
  floatStr t := String.ofList (replicate (floatIndex t) 'x')
  aesGcm := fun _ _ plaintext _ => plaintext

lemma floatIndex_injective : Function.Injective floatIndex := by
  intro a b h
  cases a <;> cases b <;> simp only [floatIndex,Nat.add_right_cancel_iff] at h <;> try omega
  case fin.fin p q =>
    obtain ⟨hnum,hden⟩ := Nat.pair_eq_pair.mp h
    obtain ⟨hpos,hneg⟩ := Nat.pair_eq_pair.mp hnum
    rw [Rat.ext (by omega) hden]
  all_goals rfl

lemma letterPrimitives_faithful : Faithful letterPrimitives where
  sha256 := Function.injective_id
  floatStr := by
    intro a b h
    have hl : replicate (floatIndex a) 'x' = replicate (floatIndex b) 'x' :=
      String.ofList_injective h
    exact floatIndex_injective (by simpa using congrArg List.length hl)
  floatStr_colons t := by
    rw [colons,letterPrimitives,String.toList_ofList,count_eq_zero]
    exact fun h => absurd (eq_of_mem_replicate h) (by decide)

def post (body : String) (replyTo : Option String) : MessageEnvelope where
  channelId := "c"
  senderHash := "alice"
  timestamp := .fin 1
  body := some body
  replyTo := replyTo

def openNode : Processor := ⟨none,none,none⟩

def postRow (env : MessageEnvelope) : Message :=
  messageRow letterPrimitives openNode ⟨0,[]⟩ env (some 1) none { body := env.body }

def stored (env : MessageEnvelope) : Store where
  channels := .singleton { id := "c" }
  messages := .singleton (postRow env)

theorem repeatedPost_same : (ingest letterPrimitives openNode ⟨0,[]⟩ none
      (stored (post "hi" (some ""))) (post "hi" none)).2 =
        .ok (postRow (post "hi" (some "")), stored (post "hi" (some ""))) ∧
      SameContent (post "hi" (some "")) (post "hi" none) := by
  have hd : (ingest letterPrimitives openNode ⟨0,[]⟩ none (stored (post "hi" (some "")))
      (post "hi" none)).2 = .ok (postRow (post "hi" (some "")), stored (post "hi" (some ""))) := rfl
  have ht : ¬ Mutation (post "hi" none).type := by
    simp [Mutation,post,msgText,msgEdit,msgDelete,msgPin,msgReaction]
  exact ⟨hd,((message_identity_iff letterPrimitives_faithful).2 ht rfl hd).mpr ⟨rfl,rfl,rfl⟩⟩

theorem shiftedColon_dropped :
    (ingest letterPrimitives openNode ⟨0,[]⟩ none (stored (post "a:b" (some "c")))
        (post "a" (some "b:c"))).2 =
        .ok (postRow (post "a:b" (some "c")), stored (post "a:b" (some "c"))) ∧
      (post "a:b" (some "c")).hashText letterPrimitives =
        (post "a" (some "b:c")).hashText letterPrimitives ∧
      ¬ SameContent (post "a:b" (some "c")) (post "a" (some "b:c")) := by
  refine ⟨rfl,rfl,?_⟩
  rintro ⟨-,-,-,-,hb,-⟩
  exact absurd hb (by decide)

end Hokora.MessageIdentity
