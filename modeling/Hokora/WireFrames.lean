import Hokora.Constants
import Hokora.Msgpack

/-!
# Frames of the sync protocol

A length of two bytes, then the packed map.
-/
namespace Hokora.WireFrames
open BigEndian Constants List Msgpack PyValue

def frameError (text : String) : PyError := .hokora .syncError text

def addLengthHeader (data : Bytes) : Py Bytes :=
  if maxFrameSize < data.length then
    .error (frameError ("Frame too large: " ++ toString data.length ++ " > " ++
      toString maxFrameSize))
  else .ok (bytesBE 2 data.length ++ data)

def stripLengthHeader (data : Bytes) : Py Bytes :=
  if data.length < 2 then .error (frameError "Frame too short for length header")
  else if (data.drop 2).length ≠ natBE (data.take 2) then
    .error (frameError ("Frame length mismatch: header says " ++ toString (natBE (data.take 2)) ++
      ", got " ++ toString (data.drop 2).length))
  else .ok (data.drop 2)

def requestVal (action : ℤ) (nonce : Bytes) (payload : Val) : Val :=
  .dict ([("v", .int wireVersion), ("action", .int action), ("nonce", .bytes nonce)] ++
    if payload.truthy then [("payload", payload)] else [])

variable (fmt : FloatFormat)

def encodeSyncRequest (action : ℤ) (nonce : Bytes) (payload : Val) : Py Bytes :=
  if nonce.length ≠ nonceSize then
    .error (frameError ("Nonce must be " ++ toString nonceSize ++ " bytes, got " ++
      toString nonce.length))
  else do
    let raw ← packb fmt (requestVal action nonce payload)
    addLengthHeader raw

def responseVal (nonce : Bytes) (payload : Val) (nodeTime : Option FloatVal) : Val :=
  .dict ([("v", .int wireVersion), ("nonce", .bytes nonce), ("data", payload)] ++
    (nodeTime.map fun t => ("node_time", Val.float t)).toList)

def encodeSyncResponse (nonce : Bytes) (payload : Val) (nodeTime : Option FloatVal) :
    Py Bytes := do
  let raw ← packb fmt (responseVal nonce payload nodeTime)
  addLengthHeader raw

def eventVal (eventType : String) (data : List (String × Val)) : Val :=
  .dict [("v", .int wireVersion), ("event", .str eventType), ("data", .dict data)]

def encodePushEvent (eventType : String) (data : List (String × Val)) : Py Bytes :=
  packb fmt (eventVal eventType data)

lemma addLengthHeader_ok {data bs : Bytes} (h : addLengthHeader data = .ok bs) :
    data.length ≤ maxFrameSize ∧ bs = bytesBE 2 data.length ++ data := by
  unfold addLengthHeader at h
  split_ifs at h with hl
  cases h
  exact ⟨by omega,rfl⟩

lemma header_cons {n : ℕ} (hn : n ≤ maxFrameSize) (data : Bytes) :
    ∃ x y, bytesBE 2 n ++ data = x :: y :: data ∧ x.toNat = n / 256 := by
  unfold maxFrameSize at hn
  refine ⟨UInt8.ofNat (n / 256),UInt8.ofNat (n % 256),?_,?_⟩
  · simp [bytesBE,Nat.mod_eq_of_lt (show n / 256 < 256 by omega)]
  · rw [UInt8.toNat_ofNat']
    omega

lemma strip_addLengthHeader {data bs : Bytes} (h : addLengthHeader data = .ok bs) :
    stripLengthHeader bs = .ok data := by
  obtain ⟨hl,rfl⟩ := addLengthHeader_ok h
  have hlt : data.length < 256 ^ 2 := by
    unfold maxFrameSize at hl
    omega
  have hh := length_bytesBE 2 data.length
  unfold stripLengthHeader
  rw [take_left' hh,drop_left' hh,natBE_bytesBE 2 _ hlt,length_append,
    hh,if_neg (by omega),if_neg (not_not.mpr rfl)]

variable {fmt}

lemma responseVal_wellFormed {nonce : Bytes} {p : Val} {nodeTime : Option FloatVal}
    (hp : WellFormed fmt p) (ht : ∀ t ∈ nodeTime, fmt.exact t) :
    WellFormed fmt (responseVal nonce p nodeTime) := by
  cases nodeTime with
  | none =>
    refine .dict (by simp) ?_
    simp only [Option.map_none,Option.toList_none,append_nil,forall_mem_cons]
    exact ⟨.int _,.bytes _,hp,by simp⟩
  | some t =>
    refine .dict (by simp) ?_
    simp only [Option.map_some,Option.toList_some,cons_append,nil_append, forall_mem_cons]
    exact ⟨.int _,.bytes _,hp,.float (ht t rfl),by simp⟩

lemma eventVal_wellFormed {eventType : String} {data : List (String × Val)}
    (hd : WellFormed fmt (.dict data)) : WellFormed fmt (eventVal eventType data) := by
  refine .dict (by simp) ?_
  simp only [forall_mem_cons]
  exact ⟨.int _,.str _,hd,by simp⟩

end Hokora.WireFrames
