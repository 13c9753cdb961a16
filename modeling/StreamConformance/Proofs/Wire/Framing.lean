import Mathlib.Data.List.Forall2
import StreamConformance.Proofs.Wire.Body

/-!
# Frames one after another

Frames that are written one after another are read back in order, and then the stream has ended
(`readFrames_writeFrames`).  A frame is refused exactly if its body is too large, and a refused
frame leaves no trace.

A stream of bytes is found to have ended well exactly if it is made of whole frames and fewer than
four bytes behind them (`readFrames_ended_iff`).  So a stream that was cut inside a body is found
out, but one that was cut inside the length of a frame is not: it looks like one that ended between
two frames (`not_readFrames_ended_iff_whole`).
-/

namespace StreamConformance
namespace Wire

open Json (Bytes)
open Text (bytes)

/-! ## Lengths -/

theorem lengthOf_lengthPrefix {n : Nat} (hn : n < 0x100000000) :
    ∃ a b c d, lengthPrefix n = [a, b, c, d] ∧ lengthOf a b c d = n := by
  refine ⟨_, _, _, _, rfl, ?_⟩
  simp only [lengthOf, UInt8.toNat_ofNat']
  omega

theorem maxBody_lt : maxBody < 0x100000000 := by
  decide

/-! ## One frame -/

/-- Bytes that carry a frame: four bytes of length, most significant first, and a body of that
length, which is not too large and is read as the frame. -/
def Carries (chunk : Bytes) (f : Frame) : Prop :=
  ∃ a b c d body, chunk = a :: b :: c :: d :: body ∧ lengthOf a b c d = body.length ∧
    body.length ≤ maxBody ∧ decode body = .ok f

theorem readFrame_of_carries {chunk : Bytes} {f : Frame} (h : Carries chunk f) (rest : Bytes) :
    readFrame (chunk ++ rest) = .frame f rest := by
  obtain ⟨a, b, c, d, body, rfl, hsize, hmax, hdecode⟩ := h
  have htake : (body ++ rest).take body.length = body := List.take_left
  have hdrop : (body ++ rest).drop body.length = rest := List.drop_left
  simp only [readFrame, List.cons_append, hsize, htake, hdrop, hdecode,
    if_neg (Nat.not_lt.mpr hmax), if_neg (Nat.lt_irrefl _)]

theorem carries_of_readFrame {s rest : Bytes} {f : Frame} (h : readFrame s = .frame f rest) :
    ∃ chunk, s = chunk ++ rest ∧ Carries chunk f := by
  unfold readFrame at h
  split at h
  · rename_i a b c d s
    simp only at h
    split at h
    · cases h
    · rename_i hmax
      split at h
      · cases h
      · rename_i hshort
        split at h
        · rename_i hdecode
          cases h
          have hle := List.length_take_le (lengthOf a b c d) s
          have hlength : lengthOf a b c d = (s.take (lengthOf a b c d)).length := by omega
          refine ⟨a :: b :: c :: d :: s.take (lengthOf a b c d), ?_, a, b, c, d, _, rfl, hlength,
            by omega, hdecode⟩
          simp only [List.cons_append, List.take_append_drop]
        · cases h
  · cases h

theorem readFrame_ended_iff {s : Bytes} : readFrame s = .ended ↔ s.length < 4 := by
  constructor
  · intro h
    unfold readFrame at h
    split at h
    · simp only at h
      split at h
      · cases h
      · split at h
        · cases h
        · split at h <;> cases h
    · rename_i hnot
      by_contra hlong
      match s with
      | a :: b :: c :: d :: s => exact hnot a b c d s rfl
      | [] | [_] | [_, _] | [_, _, _] => simp at hlong
  · intro h
    match s with
    | [] | [_] | [_, _] | [_, _, _] => rfl
    | a :: b :: c :: d :: s =>
      simp only [List.length_cons] at h
      omega

/-- A frame that was cut inside its body is found out. -/
theorem readFrame_of_cut {a b c d : UInt8} {body : Bytes} (hmax : lengthOf a b c d ≤ maxBody)
    (hshort : body.length < lengthOf a b c d) :
    readFrame (a :: b :: c :: d :: body) = .failed (.broken shortRead) := by
  have htake : (body.take (lengthOf a b c d)).length < lengthOf a b c d :=
    Nat.lt_of_le_of_lt (List.length_take_le' ..) hshort
  simp only [readFrame, if_neg (Nat.not_lt.mpr hmax), if_pos htake]

/-! ## All frames of a stream -/

theorem readFrames_of_frame {s rest : Bytes} {f : Frame} (h : readFrame s = .frame f rest) :
    readFrames s = (f :: (readFrames rest).1, (readFrames rest).2) := by
  rw [readFrames]
  split
  · rename_i hread
    rw [h] at hread
    cases hread
  · rename_i hread
    rw [h] at hread
    cases hread
  · rename_i hread
    rw [h] at hread
    cases hread
    rfl

theorem readFrames_of_ended {s : Bytes} (h : readFrame s = .ended) : readFrames s = ([], none) := by
  rw [readFrames]
  split
  · rfl
  · rename_i hread
    rw [h] at hread
    cases hread
  · rename_i hread
    rw [h] at hread
    cases hread

theorem readFrames_of_failed {s : Bytes} {fault : Fault} (h : readFrame s = .failed fault) :
    readFrames s = ([], some fault) := by
  rw [readFrames]
  split
  · rename_i hread
    rw [h] at hread
    cases hread
  · rename_i hread
    rw [h] at hread
    cases hread
    rfl
  · rename_i hread
    rw [h] at hread
    cases hread

/-- Whole frames are read, and then what stands behind them. -/
theorem readFrames_append {chunks : List Bytes} {fs : List Frame}
    (h : List.Forall₂ Carries chunks fs) (rest : Bytes) :
    readFrames (chunks.flatten ++ rest) = (fs ++ (readFrames rest).1, (readFrames rest).2) := by
  induction h with
  | nil => rfl
  | @cons chunk f chunks fs hf _ ih =>
    rw [List.flatten_cons, List.append_assoc, readFrames_of_frame (readFrame_of_carries hf _), ih]
    rfl

/-- What is read of a stream that ends well. -/
theorem exists_of_readFrames {s : Bytes} (h : (readFrames s).2 = none) :
    ∃ chunks tail, s = chunks.flatten ++ tail ∧ List.Forall₂ Carries chunks (readFrames s).1 ∧
      tail.length < 4 := by
  induction s using readFrames.induct with
  | case1 s hread =>
    rw [readFrames_of_ended hread]
    exact ⟨[], s, rfl, .nil, readFrame_ended_iff.mp hread⟩
  | case2 s fault hread =>
    rw [readFrames_of_failed hread] at h
    cases h
  | case3 s f rest hread _ _ _ ih =>
    rw [readFrames_of_frame hread] at h ⊢
    obtain ⟨chunk, rfl, hchunk⟩ := carries_of_readFrame hread
    obtain ⟨chunks, tail, hrest, hchunks, htail⟩ := ih h
    refine ⟨chunk :: chunks, tail, ?_, .cons hchunk hchunks, htail⟩
    rw [List.flatten_cons, List.append_assoc, ← hrest]

/-! ## Writing -/

/-- Write a frame behind what a buffer holds; a frame that is refused leaves the buffer as it is. -/
def writeFrame (f : Frame) (buffer : Bytes) : Bytes × Option Fault :=
  match f.encode with
  | .ok b => (buffer ++ b.toList, none)
  | .error fault => (buffer, some fault)

/-- Write frames one after another, and tell which of them were not refused. -/
def writeFrames : List Frame → Bytes → Bytes × List Frame
  | [], buffer => (buffer, [])
  | f :: fs, buffer =>
    match writeFrame f buffer with
    | (buffer, none) => ((writeFrames fs buffer).1, f :: (writeFrames fs buffer).2)
    | (buffer, some _) => writeFrames fs buffer

/-- A frame is refused exactly if its body is too large. -/
theorem writeFrame_eq (f : Frame) (buffer : Bytes) :
    writeFrame f buffer =
      if maxBody < f.body.utf8ByteSize then
        (buffer, some (.frameTooLarge f.body.utf8ByteSize))
      else (buffer ++ (lengthPrefix f.body.utf8ByteSize ++ bytes f.body), none) := by
  unfold writeFrame Frame.encode frameBytes
  by_cases hsize : maxBody < f.body.utf8ByteSize
  · rw [if_pos hsize, if_pos hsize]
  · rw [if_neg hsize, if_neg hsize]
    simp only [Text.toList_eq, ByteArray.toList_data_append, List.toList_data_toByteArray]
    rw [Text.bytes_eq_data]
    rfl

theorem carries_written {f : Frame} (h : f.HasWordCount) (hsize : ¬ maxBody < f.body.utf8ByteSize) :
    Carries (lengthPrefix f.body.utf8ByteSize ++ bytes f.body) f := by
  have hle := Nat.le_of_not_lt hsize
  obtain ⟨a, b, c, d, hlength, hof⟩ := lengthOf_lengthPrefix (Nat.lt_of_le_of_lt hle maxBody_lt)
  refine ⟨a, b, c, d, bytes f.body, by rw [hlength]; rfl, ?_, ?_, decode_body h⟩
  · rw [hof, Text.length_bytes]
  · rwa [Text.length_bytes]

/-- What is written of some frames are whole frames. -/
theorem exists_of_writeFrames {fs : List Frame} (h : ∀ f ∈ fs, f.HasWordCount) (buffer : Bytes) :
    ∃ chunks, (writeFrames fs buffer).1 = buffer ++ chunks.flatten ∧
      List.Forall₂ Carries chunks (writeFrames fs buffer).2 := by
  induction fs generalizing buffer with
  | nil => exact ⟨[], (List.append_nil _).symm, .nil⟩
  | cons f fs ih =>
    have htail := ih fun f' hf' => h f' (List.mem_cons_of_mem _ hf')
    by_cases hsize : maxBody < f.body.utf8ByteSize
    · simp only [writeFrames, writeFrame_eq, if_pos hsize]
      exact htail buffer
    · simp only [writeFrames, writeFrame_eq, if_neg hsize]
      obtain ⟨chunks, hchunks, hcarries⟩ :=
        htail (buffer ++ (lengthPrefix f.body.utf8ByteSize ++ bytes f.body))
      refine ⟨(lengthPrefix f.body.utf8ByteSize ++ bytes f.body) :: chunks, ?_,
        .cons (carries_written (h f List.mem_cons_self) hsize) hcarries⟩
      rw [hchunks, List.flatten_cons, List.append_assoc]

theorem accepted_eq (fs : List Frame) (buffer : Bytes) :
    (writeFrames fs buffer).2 = fs.filter fun f => f.body.utf8ByteSize ≤ maxBody := by
  induction fs generalizing buffer with
  | nil => rfl
  | cons f fs ih =>
    by_cases hsize : maxBody < f.body.utf8ByteSize
    · simp only [writeFrames, writeFrame_eq, if_pos hsize, ih]
      rw [List.filter_cons_of_neg (by simpa using hsize)]
    · simp only [writeFrames, writeFrame_eq, if_neg hsize, ih]
      rw [List.filter_cons_of_pos (by simpa using hsize)]

/-- **What is written is read.**  Frames that are written one after another are read in the same
order, and then the stream has ended; only frames that were refused are missing.  A frame is refused
exactly if its body is too large, and then nothing of it is written. -/
theorem readFrames_writeFrames {fs : List Frame} (h : ∀ f ∈ fs, f.HasWordCount) :
    readFrames (writeFrames fs []).1 = ((writeFrames fs []).2, none) ∧
      (writeFrames fs []).2 = fs.filter (fun f => f.body.utf8ByteSize ≤ maxBody) ∧
      ∀ f buffer, ((writeFrame f buffer).2 ≠ none ↔ maxBody < f.body.utf8ByteSize) ∧
        ((writeFrame f buffer).2 ≠ none →
          writeFrame f buffer = (buffer, some (.frameTooLarge f.body.utf8ByteSize))) := by
  refine ⟨?_, accepted_eq fs [], fun f buffer => ?_⟩
  · obtain ⟨chunks, hchunks, hcarries⟩ := exists_of_writeFrames h []
    have hend : readFrames [] = ([], none) := readFrames_of_ended rfl
    have hread := readFrames_append hcarries []
    rw [hend, List.append_nil, List.append_nil] at hread
    rw [hchunks, List.nil_append, hread]
  · rw [writeFrame_eq]
    by_cases hsize : maxBody < f.body.utf8ByteSize <;> simp [hsize]

/-- The text of an error has at most as many characters as the body of its frame has bytes. -/
theorem length_le_utf8ByteSize_body (stream : UInt32) (message : String) :
    message.length ≤ (Frame.error stream message).body.utf8ByteSize := by
  have hbody : (bytes (Json.escape message)).length ≤
      (bytes (Frame.error stream message).body).length := by
    rw [body_eq, Json.bytes_writeObject]
    simp only [Frame.members, stringMember, List.map_cons, List.map_nil, Json.Member.written,
      Json.laterBytes, Json.memberBytes, Json.bytes_writeString, List.flatMap_cons,
      List.flatMap_nil, List.length_cons, List.length_append]
    omega
  rw [← Text.length_bytes]
  exact Nat.le_trans (Json.length_le_length_bytes_escape message) hbody

/-- An error whose text alone is too large. -/
def oversized : Frame :=
  .error 3 (String.ofList (List.replicate (maxBody + 1) 'a'))

theorem maxBody_lt_oversized : maxBody < oversized.body.utf8ByteSize := by
  have hle := length_le_utf8ByteSize_body 3 (String.ofList (List.replicate (maxBody + 1) 'a'))
  rwa [String.length_ofList, List.length_replicate] at hle

theorem utf8ByteSize_complete : (Frame.complete 1).body.utf8ByteSize = 33 := by
  rw [← Text.length_bytes, body_eq]
  simp only [Frame.members, natMember, List.map_cons, List.map_nil, Json.Member.written,
    Json.bytes_writeObject, Json.laterBytes, Json.memberBytes, Json.bytes_writeString,
    Json.bytes_writeNat, List.flatMap_cons, List.flatMap_nil]
  simp only [Text.bytes_eq, Json.toList_escape]
  decide

/-- Frames around one that is refused. -/
theorem readFrames_writeFrames_oversized :
    (∀ f ∈ [Frame.requestChannel 1 5 ⟨"a\"b\\c", "é\n"⟩, oversized, .complete 1],
      f.HasWordCount) ∧
    readFrames
      (writeFrames [.requestChannel 1 5 ⟨"a\"b\\c", "é\n"⟩, oversized, .complete 1] []).1 =
      ([.requestChannel 1 5 ⟨"a\"b\\c", "é\n"⟩, .complete 1], none) := by
  have hcounts : ∀ f ∈ [Frame.requestChannel 1 5 ⟨"a\"b\\c", "é\n"⟩, oversized, .complete 1],
      f.HasWordCount := by
    simp [Frame.HasWordCount, oversized, Demand.limit]
  obtain ⟨hread, haccepted, -⟩ := readFrames_writeFrames hcounts
  have hfirst : (Frame.requestChannel 1 5 ⟨"a\"b\\c", "é\n"⟩).body.utf8ByteSize ≤ maxBody := by
    rw [← Text.length_bytes, body_eq]
    simp only [Frame.members, natMember, payloadMember, writePayload, List.map_cons, List.map_nil,
      Json.Member.written, Json.bytes_writeObject, Json.laterBytes, Json.memberBytes,
      Json.bytes_writeString, Json.bytes_writeNat, List.flatMap_cons, List.flatMap_nil]
    simp only [Text.bytes_eq, Json.toList_escape]
    decide
  have hlast : (Frame.complete 1).body.utf8ByteSize ≤ maxBody := by
    rw [utf8ByteSize_complete]
    decide
  refine ⟨hcounts, ?_⟩
  rw [hread, haccepted, List.filter_cons_of_pos (by simpa using hfirst),
    List.filter_cons_of_neg (by simpa using maxBody_lt_oversized),
    List.filter_cons_of_pos (by simpa using hlast), List.filter_nil]

/-! ## Streams that were cut -/

/-- Of a frame that was cut, nothing is read; and if it was cut inside its length, nothing is
missed. -/
theorem readFrames_take {f : Frame} {k : Nat} (hwritten : (writeFrame f []).2 = none)
    (hk : k < (writeFrame f []).1.length) :
    readFrames ((writeFrame f []).1.take k) =
      ([], if k < 4 then none else some (.broken shortRead)) := by
  have hsize : f.body.utf8ByteSize ≤ maxBody := by
    by_contra hlarge
    rw [writeFrame_eq, if_pos (Nat.lt_of_not_le hlarge)] at hwritten
    cases hwritten
  obtain ⟨a, b, c, d, hlength, hof⟩ := lengthOf_lengthPrefix (Nat.lt_of_le_of_lt hsize maxBody_lt)
  have hbytes : (writeFrame f []).1 = a :: b :: c :: d :: bytes f.body := by
    rw [writeFrame_eq, if_neg (Nat.not_lt.mpr hsize), hlength]
    rfl
  rw [hbytes] at hk ⊢
  by_cases hprefix : k < 4
  · have hshort : ((a :: b :: c :: d :: bytes f.body).take k).length < 4 :=
      Nat.lt_of_le_of_lt (List.length_take_le ..) hprefix
    rw [readFrames_of_ended (readFrame_ended_iff.mpr hshort), if_pos hprefix]
  · obtain ⟨k, rfl⟩ : ∃ body, k = body + 4 := ⟨k - 4, by omega⟩
    have hshort : ((bytes f.body).take k).length < lengthOf a b c d := by
      rw [hof, ← Text.length_bytes, List.length_take]
      simp only [List.length_cons] at hk
      omega
    have hcut := readFrame_of_cut (by rwa [hof]) hshort
    simp only [List.take_succ_cons]
    rw [readFrames_of_failed hcut, if_neg hprefix]

/-- **What ends well.**  A stream of bytes is read as some frames and ends well exactly if it is
made of bytes that carry these frames and of fewer than four bytes behind them.  So what has been
written of some frames ends well if it is cut less than four bytes behind one of them, and is found
to be short if it is cut further behind. -/
theorem readFrames_ended_iff (s : Bytes) :
    (∀ fs, readFrames s = (fs, none) ↔
      ∃ chunks tail, s = chunks.flatten ++ tail ∧ List.Forall₂ Carries chunks fs ∧
        tail.length < 4) ∧
    ∀ fs f k, (∀ f' ∈ fs, f'.HasWordCount) → (writeFrame f []).2 = none →
      k < (writeFrame f []).1.length →
      s = (writeFrames fs []).1 ++ (writeFrame f []).1.take k →
      readFrames s =
        ((writeFrames fs []).2, if k < 4 then none else some (.broken shortRead)) := by
  refine ⟨fun fs => ⟨fun h => ?_, ?_⟩, ?_⟩
  · have hend : (readFrames s).2 = none := by rw [h]
    have hread := exists_of_readFrames hend
    rwa [h] at hread
  · rintro ⟨chunks, tail, rfl, hcarries, htail⟩
    rw [readFrames_append hcarries, readFrames_of_ended (readFrame_ended_iff.mpr htail),
      List.append_nil]
  · rintro fs f k hfs hwritten hk rfl
    obtain ⟨chunks, hchunks, hcarries⟩ := exists_of_writeFrames hfs []
    have hcut := readFrames_take hwritten hk
    rw [hchunks, List.nil_append, readFrames_append hcarries, hcut, List.append_nil]

/-- Two cuts behind a whole frame: one is missed and one is found. -/
theorem readFrames_ended_iff_complete :
    readFrames ((writeFrames [.complete 1] []).1 ++ (writeFrame (.complete 1) []).1.take 3) =
      ([.complete 1], none) ∧
    readFrames ((writeFrames [.complete 1] []).1 ++ (writeFrame (.complete 1) []).1.take 5) =
      ([.complete 1], some (.broken shortRead)) := by
  have hsize : ¬ maxBody < (Frame.complete 1).body.utf8ByteSize := by
    rw [utf8ByteSize_complete]
    decide
  have hwritten : writeFrame (.complete 1) [] =
      (lengthPrefix 33 ++ bytes (Frame.complete 1).body, none) := by
    rw [writeFrame_eq, if_neg hsize, utf8ByteSize_complete]
    rfl
  have hlength : (writeFrame (.complete 1) []).1.length = 37 := by
    rw [hwritten, List.length_append, Text.length_bytes, utf8ByteSize_complete]
    rfl
  have haccepted : (writeFrames [.complete 1] []).2 = [.complete 1] := by
    rw [accepted_eq, List.filter_cons_of_pos (by simpa using hsize), List.filter_nil]
  have hcounts : ∀ f ∈ [Frame.complete 1], f.HasWordCount := by
    simp [Frame.HasWordCount]
  have hcut := fun k (hk : k < 37) => (readFrames_ended_iff _).2 [.complete 1] (.complete 1) k
    hcounts (by rw [hwritten]) (by rwa [hlength]) rfl
  rw [haccepted] at hcut
  exact ⟨hcut 3 (by decide), hcut 5 (by decide)⟩

/-- A stream that ends inside the length of a frame is not told from one that ends between two
frames. -/
theorem not_readFrames_ended_iff_whole :
    ¬ ((readFrames [0, 0, 0]).2 = none ↔
      ∃ chunks fs, [0, 0, 0] = List.flatten chunks ∧ List.Forall₂ Carries chunks fs) := by
  intro h
  have hend : readFrame [0, 0, 0] = .ended := rfl
  obtain ⟨chunks, fs, hchunks, hcarries⟩ := h.mp (by rw [readFrames_of_ended hend])
  cases hcarries with
  | nil => cases hchunks
  | @cons chunk f chunks fs hf _ =>
    obtain ⟨a, b, c, d, body, rfl, -⟩ := hf
    have hlength := congrArg List.length hchunks
    simp at hlength

end Wire
end StreamConformance
