import Hokora.PackedSize
import Hokora.WireFrames

/-!
# Responses on a link

The answer, then a shorter one, then an error, whichever fits the frame first.
-/
namespace Hokora.LinkResponses
open BigEndian Constants Msgpack PackedSize PyValue WireFrames

def bulkKeys : List String := ["messages", "results", "members"]

def cut : String × Val → String × Val
  | (key, .list l) => (key, .list (if key ∈ bulkKeys then l.take 10 else l))
  | e => e

def truncated (data : List (String × Val)) : List (String × Val) :=
  (setEntry data "truncated" (.bool true)).map cut

structure Sent where
  data : List (String × Val)
  frame : Bytes

variable (fmt : FloatFormat) (nonce : Bytes)

def encodeResponse (data : List (String × Val)) (first second : FloatVal) : Py Sent :=
  match encodeSyncResponse fmt nonce (.dict data) (some first) with
  | .ok frame => .ok ⟨data,frame⟩
  | .error (.hokora .syncError _) => do
      let frame ← encodeSyncResponse fmt nonce (.dict (truncated data)) (some second)
      pure ⟨truncated data,frame⟩
  | .error e => .error e

def internalError : List (String × Val) := [("error", .str "Internal server error")]

def sendResponse (result : Py (List (String × Val))) (first second : FloatVal) : Py Sent :=
  match result >>= fun data => encodeResponse fmt nonce data first second with
  | .ok sent => .ok sent
  | .error _ => do
      let frame ← encodeSyncResponse fmt nonce (.dict internalError) none
      pure ⟨internalError,frame⟩

def packedSize (data : List (String × Val)) : Option ℕ :=
  sizeAt packDepth (responseVal nonce (.dict data) (some (.fin 0)))

def Fits (data : List (String × Val)) : Prop :=
  (packedSize nonce data).any fun n => n ≤ maxFrameSize

def Oversized (data : List (String × Val)) : Prop :=
  (packedSize nonce data).any fun n => maxFrameSize < n

instance (data : List (String × Val)) : Decidable (Fits nonce data) :=
  inferInstanceAs (Decidable (_ = true))

instance (data : List (String × Val)) : Decidable (Oversized nonce data) :=
  inferInstanceAs (Decidable (_ = true))

variable {nonce} {data : List (String × Val)}

lemma fits_iff : Fits nonce data ↔ ∃ n, packedSize nonce data = some n ∧ n ≤ maxFrameSize := by
  simp [Fits,Option.any_eq_true]

lemma oversized_iff :
    Oversized nonce data ↔ ∃ n, packedSize nonce data = some n ∧ maxFrameSize < n := by
  simp [Oversized,Option.any_eq_true]

lemma lengthOf_response {time : FloatVal} :
    lengthOf (packb fmt (responseVal nonce (.dict data) (some time))) = packedSize nonce data := by
  rw [packb,← sizeAt_eq]
  rfl

lemma encode_fits (h : Fits nonce data) (time : FloatVal) :
    ∃ frame, encodeSyncResponse fmt nonce (.dict data) (some time) = .ok frame := by
  obtain ⟨n,hn,hle⟩ := fits_iff.mp h
  rw [← lengthOf_response fmt] at hn
  obtain ⟨raw,hr,rfl⟩ := lengthOf_eq_some.mp hn
  rw [encodeSyncResponse,hr,ok_bind,addLengthHeader,if_neg (Nat.not_lt.mpr hle)]
  exact ⟨_,rfl⟩

lemma encode_oversized (h : Oversized nonce data) (time : FloatVal) :
    ∃ text, encodeSyncResponse fmt nonce (.dict data) (some time) =
      .error (.hokora .syncError text) := by
  obtain ⟨n,hn,hlt⟩ := oversized_iff.mp h
  rw [← lengthOf_response fmt] at hn
  obtain ⟨raw,hr,rfl⟩ := lengthOf_eq_some.mp hn
  rw [encodeSyncResponse,hr,ok_bind,addLengthHeader,if_pos hlt]
  exact ⟨_,rfl⟩

lemma encode_fails (h : ¬ Fits nonce data) (time : FloatVal) :
    ∃ e, encodeSyncResponse fmt nonce (.dict data) (some time) = .error e ∧
      (¬ Oversized nonce data → ∀ text, e ≠ .hokora .syncError text) := by
  cases hs : packedSize nonce data with
  | none =>
    rw [← lengthOf_response fmt] at hs
    cases hp : packb fmt (responseVal nonce (.dict data) (some time)) with
    | ok raw =>
      rw [hp] at hs
      cases hs
    | error e =>
      refine ⟨e,by rw [encodeSyncResponse,hp,error_bind],?_⟩
      intro _ text he
      rcases packAt_error hp with hr | hr <;> rw [hr] at he <;> cases he
  | some n =>
    have hlt : maxFrameSize < n := by
      by_contra hle
      exact h (fits_iff.mpr ⟨n,hs,Nat.not_lt.mp hle⟩)
    have ho : Oversized nonce data := oversized_iff.mpr ⟨n,hs,hlt⟩
    obtain ⟨text,ht⟩ := encode_oversized fmt ho time
    exact ⟨_,ht,fun hn => absurd ho hn⟩

def carried (nonce : Bytes) (data : List (String × Val)) : List (String × Val) :=
  if Fits nonce data then data
  else if Oversized nonce data ∧ Fits nonce (truncated data) then truncated data
  else internalError

variable {first second : FloatVal}

variable {fmt} in
lemma sendResponse_data {sent : Sent}
    (h : sendResponse fmt nonce (.ok data) first second = .ok sent) :
    sent.data = carried nonce data := by
  unfold sendResponse at h
  rw [ok_bind] at h
  unfold carried
  split_ifs with hfits hcut
  · obtain ⟨frame,hframe⟩ := encode_fits fmt hfits first
    simp only [encodeResponse,hframe] at h
    cases h
    rfl
  · obtain ⟨text,htext⟩ := encode_oversized fmt hcut.1 first
    obtain ⟨frame,hframe⟩ := encode_fits fmt hcut.2 second
    simp only [encodeResponse,htext,hframe,ok_bind] at h
    cases h
    rfl
  have hfails : ∃ e, encodeResponse fmt nonce data first second = .error e := by
    obtain ⟨e,he,hother⟩ := encode_fails fmt hfits first
    by_cases hover : Oversized nonce data
    · obtain ⟨text,htext⟩ := encode_oversized fmt hover first
      obtain ⟨e',he',-⟩ := encode_fails fmt (fun hf => hcut ⟨hover,hf⟩) second
      exact ⟨e',by simp only [encodeResponse,htext,he',error_bind]⟩
    refine ⟨e,?_⟩
    unfold encodeResponse
    rw [he]
    split
    next heq => cases heq
    next heq =>
      cases heq
      exact absurd rfl (hother hover _)
    next heq =>
      cases heq
      rfl
  obtain ⟨e,he⟩ := hfails
  simp only [he] at h
  obtain ⟨frame,-,h⟩ := bind_ok h
  cases h
  rfl

lemma sendResponse_fits (h : Fits nonce data) :
    ∃ frame, sendResponse fmt nonce (.ok data) first second = .ok ⟨data,frame⟩ := by
  obtain ⟨frame,hf⟩ := encode_fits fmt h first
  refine ⟨frame,?_⟩
  simp [sendResponse,encodeResponse,hf]

lemma sendResponse_truncated (ho : Oversized nonce data) (h : Fits nonce (truncated data)) :
    ∃ frame, sendResponse fmt nonce (.ok data) first second = .ok ⟨truncated data,frame⟩ := by
  obtain ⟨text,ht⟩ := encode_oversized fmt ho first
  obtain ⟨frame,hf⟩ := encode_fits fmt h second
  refine ⟨frame,?_⟩
  simp only [sendResponse,encodeResponse,ht,hf,ok_bind]
  rfl

variable {fmt}

lemma fits_of_within {data' : List (String × Val)} (h : Within (.dict data) (.dict data'))
    (hf : Fits nonce data') : Fits nonce data := by
  obtain ⟨n,hn,hle⟩ := fits_iff.mp hf
  have hw : Within (responseVal nonce (.dict data) (some (.fin 0)))
      (responseVal nonce (.dict data') (some (.fin 0))) :=
    within_dict (.cons (.refl "v" _) (.cons (.refl "nonce" _) (.cons (.of "data" h)
      (.cons (.refl "node_time" _) .nil))))
  obtain ⟨m,hm,hmn⟩ := hw packDepth n hn
  exact fits_iff.mpr ⟨m,hm,hmn.trans hle⟩

lemma not_fits_of_large {n : ℕ} (h : Large n (.dict data)) (hn : maxFrameSize < n) :
    ¬ Fits nonce data := by
  intro hf
  obtain ⟨m,hm,hle⟩ := fits_iff.mp hf
  have hl : Large n (responseVal nonce (.dict data) (some (.fin 0))) :=
    large_dict (e := ("data", .dict data)) (by simp) h
  have := hl packDepth m hm
  omega

/-- A peer that strips the header of the sent frame and unpacks the rest has the data sent, be it
the answer, its first ten messages or an error. -/
theorem sent_decodes {result : Py (List (String × Val))} {sent : Sent}
    (h : sendResponse fmt nonce result first second = .ok sent)
    (hd : WellFormed fmt (.dict sent.data)) (hfi : fmt.exact first) (hs : fmt.exact second) :
    ∃ time, (do let raw ← stripLengthHeader sent.frame; unpackb fmt raw) =
      .ok (responseVal nonce (.dict sent.data) time) := by
  have he : ∃ time, (∀ t ∈ time, fmt.exact t) ∧
      encodeSyncResponse fmt nonce (.dict sent.data) time = .ok sent.frame := by
    unfold sendResponse at h
    split at h
    next sent' hse =>
      cases h
      obtain ⟨data,-,hen⟩ := bind_ok hse
      unfold encodeResponse at hen
      split at hen
      next frame hf =>
        cases hen
        exact ⟨some first,by simpa using hfi,hf⟩
      · obtain ⟨frame,hf,hen⟩ := bind_ok hen
        cases hen
        exact ⟨some second,by simpa using hs,hf⟩
      · cases hen
    · obtain ⟨frame,hf,h⟩ := bind_ok h
      cases h
      exact ⟨none,by simp,hf⟩
  obtain ⟨time,ht,hen⟩ := he
  obtain ⟨raw,hr,hh⟩ := bind_ok hen
  refine ⟨time,?_⟩
  rw [strip_addLengthHeader hh,ok_bind]
  exact unpackb_packb (responseVal_wellFormed hd ht) hr

def memberPage : List (String × Val) :=
  [("action", .str "member_list"), ("members", .list [.str "alice", .int 7])]

lemma memberPage_wellFormed : WellFormed zeroFormat (.dict memberPage) := by
  refine .dict (by decide) fun e he => ?_
  rcases List.mem_pair.mp he with rfl | rfl
  · exact .str _
  refine .list fun v hv => ?_
  rcases List.mem_pair.mp hv with rfl | rfl
  · exact .str _
  · exact .int _

/-- A page of members, and the answer to a request whose handler raised. -/
theorem page_and_failure_decode :
    (∃ sent, sendResponse zeroFormat [1] (.ok memberPage) (.fin 0) (.fin 0) = .ok sent ∧
      sent.data = memberPage ∧ ∃ time,
        (do let raw ← stripLengthHeader sent.frame; unpackb zeroFormat raw) =
          .ok (responseVal [1] (.dict sent.data) time)) ∧
    ∃ sent, sendResponse zeroFormat [1] (.error .typeError) (.fin 0) (.fin 0) = .ok sent ∧
      sent.data = internalError ∧ ∃ time,
        (do let raw ← stripLengthHeader sent.frame; unpackb zeroFormat raw) =
          .ok (responseVal [1] (.dict sent.data) time) := by
  have hf : Fits [1] memberPage := by decide +kernel
  obtain ⟨frame,hp⟩ : ∃ frame, sendResponse zeroFormat [1] (.ok memberPage) (.fin 0) (.fin 0) =
      .ok ⟨memberPage,frame⟩ := sendResponse_fits zeroFormat hf
  obtain ⟨sent,hse⟩ := toOption_isSome.mp (show (sendResponse zeroFormat [1]
    (.error .typeError) (.fin 0) (.fin 0)).toOption.isSome by decide +kernel)
  have hi : sent.data = internalError := by
    obtain ⟨frame,-,h⟩ := bind_ok hse
    cases h
    rfl
  have hw : WellFormed zeroFormat (.dict sent.data) := by
    rw [hi]
    refine .dict (by decide) fun e he => ?_
    cases List.mem_singleton.mp he
    exact .str _
  exact ⟨⟨_,hp,rfl,sent_decodes hp memberPage_wellFormed rfl rfl⟩,
    sent,hse,hi,sent_decodes hse hw rfl rfl⟩

end Hokora.LinkResponses
