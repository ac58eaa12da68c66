/-
Tessivum.Llm.SseTheorems — what the decoder makes of a stream that comes in
pieces.

`splitBlank` cuts a stream at its blank lines, in one pass. A blank line that
is there stays the first one whatever comes behind it (`eventBoundary_append`),
so the frames do not depend on the pieces.

The size check does. A frame is measured without its blank line, what waits in
the buffer with the part of the blank line that has come, so a frame of almost
the limit is refused when a piece ends inside its blank line
(`split_blank_line_refused`).
-/
import Tessivum.Llm.Sse

namespace Tessivum.Llm.Sse

open Library Protocol List

/-! ## Blank lines -/

/-- The frames between blank lines, after the bytes `frame` of the first one,
and what stands behind the last blank line. -/
def splitFrom (frame : Bytes) : Bytes → List Bytes × Bytes
  | 10 :: 10 :: rest => (frame :: (splitFrom [] rest).1, (splitFrom [] rest).2)
  | 13 :: 10 :: 13 :: 10 :: rest => (frame :: (splitFrom [] rest).1, (splitFrom [] rest).2)
  | b :: rest => splitFrom (frame ++ [b]) rest
  | [] => ([], frame)

def splitBlank (stream : Bytes) : List Bytes × Bytes := splitFrom [] stream

variable {buffer : Bytes} {start delimiter : Nat}

theorem eventBoundary_cons (b : UInt8) (rest : Bytes) : eventBoundary (b :: rest) =
    if (b :: rest).take 2 = [10, 10] then some (0, 2)
    else if (b :: rest).take 4 = [13, 10, 13, 10] then some (0, 4)
    else (eventBoundary rest).map fun (start, delimiter) => (start + 1, delimiter) := by
  rw [eventBoundary, length_cons, range_succ_eq_map, findSome?_cons]
  simp only [drop_zero]
  by_cases h2 : (b :: rest).take 2 = [10, 10]
  · rw [if_pos h2, if_pos h2]
  by_cases h4 : (b :: rest).take 4 = [13, 10, 13, 10]
  · rw [if_neg h2, if_pos h4, if_neg h2, if_pos h4]
  rw [if_neg h2, if_neg h4, if_neg h2, if_neg h4]
  dsimp only
  rw [findSome?_map, eventBoundary, map_findSome?]
  congr 1
  funext index
  simp only [Function.comp_apply, drop_succ_cons]
  split
  · rfl
  split <;> rfl

theorem take_eq_iff (pattern : Bytes) {xs : Bytes} : xs.take pattern.length = pattern ↔
    ∃ rest, xs = pattern ++ rest := by
  rw [eq_comm, ← prefix_iff_eq_take]
  exact ⟨fun ⟨rest, h⟩ => ⟨rest, h.symm⟩, fun ⟨rest, h⟩ => ⟨rest, h.symm⟩⟩

theorem splitFrom_eq (frame stream : Bytes) : splitFrom frame stream =
    match eventBoundary stream with
    | none => ([], frame ++ stream)
    | some (start, delimiter) =>
      ((frame ++ stream.take start) :: (splitBlank (stream.drop (start + delimiter))).1,
        (splitBlank (stream.drop (start + delimiter))).2) := by
  fun_induction splitFrom with
  | case1 frame rest | case2 frame rest => simp [eventBoundary_cons, splitBlank]
  | case3 frame b rest h2 h4 ih =>
    have hn2 : (b :: rest).take 2 ≠ [10, 10] := fun h => by
      obtain ⟨more, heq⟩ := (take_eq_iff [10, 10]).mp h
      cases heq
      exact h2 more rfl rfl
    have hn4 : (b :: rest).take 4 ≠ [13, 10, 13, 10] := fun h => by
      obtain ⟨more, heq⟩ := (take_eq_iff [13, 10, 13, 10]).mp h
      cases heq
      exact h4 more rfl rfl
    rw [ih, eventBoundary_cons, if_neg hn2, if_neg hn4]
    cases eventBoundary rest with
    | none => simp
    | some found => simp [Nat.add_right_comm]
  | case4 frame => simp [eventBoundary]

/-- A blank line that is there stays the first one. -/
theorem eventBoundary_append (more : Bytes) (h : eventBoundary buffer = some (start, delimiter)) :
    eventBoundary (buffer ++ more) = some (start, delimiter) := by
  induction buffer generalizing start delimiter with
  | nil => cases h
  | cons b rest ih =>
    rw [eventBoundary_cons] at h
    rw [cons_append, eventBoundary_cons]
    split at h
    · rename_i h2
      obtain ⟨_, heq⟩ := (take_eq_iff [10, 10]).mp h2
      cases heq
      exact h
    split at h
    · rename_i h4
      obtain ⟨_, heq⟩ := (take_eq_iff [13, 10, 13, 10]).mp h4
      cases heq
      exact h
    rename_i h2 h4
    obtain ⟨⟨_, _⟩, hrest, heq⟩ := map_eq_some_iff.mp h
    -- the rest has a blank line of its own, so it is too long for one to end behind it
    have hn2 : (b :: (rest ++ more)).take 2 ≠ [10, 10] := by
      cases rest with
      | nil => cases hrest
      | cons x rest => exact h2
    have hn4 : (b :: (rest ++ more)).take 4 ≠ [13, 10, 13, 10] := fun h => by
      obtain ⟨_, heq⟩ := (take_eq_iff [13, 10, 13, 10]).mp h
      match rest, hrest, h4, heq with
      | [], hrest, _, _ => cases hrest
      | [x], hrest, _, heq | [x, y], hrest, _, heq =>
        cases heq
        cases hrest
      | x :: y :: z :: rest, _, h4, heq =>
        cases heq
        exact h4 rfl
    rw [if_neg hn2, if_neg hn4, ih hrest]
    exact congrArg some heq

theorem splitBlank_none (h : eventBoundary buffer = none) : splitBlank buffer = ([], buffer) := by
  rw [splitBlank, splitFrom_eq, h]
  rfl

theorem splitBlank_some (h : eventBoundary buffer = some (start, delimiter)) :
    splitBlank buffer = (buffer.take start :: (splitBlank (buffer.drop (start + delimiter))).1,
      (splitBlank (buffer.drop (start + delimiter))).2) := by
  rw [splitBlank, splitFrom_eq, h]
  rfl

theorem splitBlank_rest (buffer : Bytes) :
    splitBlank (splitBlank buffer).2 = ([], (splitBlank buffer).2) := by
  induction hn : buffer.length using Nat.strongRecOn generalizing buffer with
  | ind n ih =>
    cases h : eventBoundary buffer with
    | none => rw [splitBlank_none h, splitBlank_none h]
    | some found =>
      have hbound := eventBoundary_bound h
      rw [splitBlank_some h]
      exact ih _ (by rw [length_drop]; omega) _ rfl

theorem splitBlank_append (buffer more : Bytes) : splitBlank (buffer ++ more) =
    ((splitBlank buffer).1 ++ (splitBlank ((splitBlank buffer).2 ++ more)).1,
      (splitBlank ((splitBlank buffer).2 ++ more)).2) := by
  induction hn : buffer.length using Nat.strongRecOn generalizing buffer with
  | ind n ih =>
    cases h : eventBoundary buffer with
    | none => rw [splitBlank_none h, nil_append]
    | some found =>
      have hbound := eventBoundary_bound h
      rw [splitBlank_some h, splitBlank_some (eventBoundary_append more h),
        take_append_of_le_length (by omega), drop_append_of_le_length hbound.1,
        ih _ (by rw [length_drop]; omega) _ rfl]
      rfl

/-! ## The decoder -/

variable {utf8Error : Bytes → String}

def readFrame (utf8Error : Bytes → String) (frame : Bytes) :
    Except TessivumError (Option String) :=
  if maxSseEventBytes < frame.length then .error eventTooLarge else eventData utf8Error frame

def readFrames (utf8Error : Bytes → String) (frames : List Bytes) :
    Except TessivumError (List String) :=
  (frames.mapM (readFrame utf8Error)).map List.reduceOption

theorem readFrames_cons (frame : Bytes) (rest : List Bytes) :
    readFrames utf8Error (frame :: rest) = (do
      let data ← readFrame utf8Error frame
      let more ← readFrames utf8Error rest
      .ok (data.toList ++ more)) := by
  rw [readFrames, mapM_cons]
  cases readFrame utf8Error frame with
  | error e => rfl
  | ok data =>
    rw [readFrames]
    cases rest.mapM (readFrame utf8Error) with
    | error e => rfl
    | ok more => cases data <;> rfl

theorem drainFrames_eq (buffer : Bytes) : drainFrames utf8Error buffer = (do
    let events ← readFrames utf8Error (splitBlank buffer).1
    .ok (events, (splitBlank buffer).2)) := by
  induction hn : buffer.length using Nat.strongRecOn generalizing buffer with
  | ind n ih =>
    rw [drainFrames]
    split
    · rename_i h
      rw [splitBlank_none h]
      rfl
    · rename_i start delimiter h
      have hbound := eventBoundary_bound h
      rw [splitBlank_some h, readFrames_cons, ih _ (by rw [length_drop]; omega) _ rfl,
        readFrame, length_take_of_le (by omega)]
      split
      · rfl
      · cases eventData utf8Error (buffer.take start) with
        | error e => rfl
        | ok data => cases readFrames utf8Error (splitBlank (buffer.drop (start + delimiter))).1 <;> rfl

theorem readFrames_append (frames more : List Bytes) :
    readFrames utf8Error (frames ++ more) = (do
      let front ← readFrames utf8Error frames
      let back ← readFrames utf8Error more
      .ok (front ++ back)) := by
  induction frames with
  | nil =>
    show readFrames utf8Error more = (do
      let back ← readFrames utf8Error more
      .ok ([] ++ back))
    cases readFrames utf8Error more <;> rfl
  | cons frame rest ih =>
    rw [cons_append, readFrames_cons, readFrames_cons, ih]
    cases readFrame utf8Error frame with
    | error e => rfl
    | ok data =>
      cases readFrames utf8Error rest with
      | error e => rfl
      | ok front => cases readFrames utf8Error more <;> simp

/-- The decoder's checks on what waits in the buffer after each chunk. -/
def Fits (buffer : Bytes) (chunks : List Bytes) : Prop :=
  ∀ n < chunks.length,
    (splitBlank (buffer ++ (chunks.take (n + 1)).flatten)).2.length ≤ maxSseEventBytes

theorem fits_cons {buffer chunk : Bytes} {rest : List Bytes} : Fits buffer (chunk :: rest) ↔
    (splitBlank (buffer ++ chunk)).2.length ≤ maxSseEventBytes ∧
      Fits (splitBlank (buffer ++ chunk)).2 rest := by
  have hlater : ∀ n, (splitBlank (buffer ++ ((chunk :: rest).take (n + 1 + 1)).flatten)).2 =
      (splitBlank ((splitBlank (buffer ++ chunk)).2 ++ (rest.take (n + 1)).flatten)).2 := fun n => by
    rw [take_succ_cons, flatten_cons, ← append_assoc, splitBlank_append]
  constructor
  · intro h
    refine ⟨by simpa using h 0 (by simp), fun n hn => ?_⟩
    rw [← hlater]
    exact h (n + 1) (by simpa using hn)
  · rintro ⟨hfirst, hrest⟩ n hn
    cases n with
    | zero => simpa using hfirst
    | succ n =>
      rw [hlater]
      exact hrest n (by simpa using hn)

theorem push_eq_ok {buffer bytes rest : Bytes} {events : List String} :
    push utf8Error buffer bytes = .ok (events, rest) ↔
      readFrames utf8Error (splitBlank (buffer ++ bytes)).1 = .ok events ∧
        rest = (splitBlank (buffer ++ bytes)).2 ∧ rest.length ≤ maxSseEventBytes := by
  rw [push, drainFrames_eq]
  cases readFrames utf8Error (splitBlank (buffer ++ bytes)).1 with
  | error e => simp
  | ok read =>
    simp only [ok_bind]
    split
    · rename_i hlarge
      constructor
      · intro h
        cases h
      · rintro ⟨_, rfl, hle⟩
        omega
    · rename_i hsmall
      constructor
      · intro h
        cases h
        exact ⟨rfl, rfl, by omega⟩
      · rintro ⟨h, rfl, _⟩
        cases h
        rfl

/-- The pieces are accepted when their frames are and every buffer on the way
is small enough. -/
theorem pushAll_eq_ok : ∀ {chunks : List Bytes} {buffer rest : Bytes} {events : List String},
    splitBlank buffer = ([], buffer) →
    (pushAll utf8Error buffer chunks = .ok (events, rest) ↔
      readFrames utf8Error (splitBlank (buffer ++ chunks.flatten)).1 = .ok events ∧
        rest = (splitBlank (buffer ++ chunks.flatten)).2 ∧ Fits buffer chunks)
  | [], buffer, rest, events, hbuffer => by
    rw [pushAll, flatten_nil, append_nil, hbuffer]
    constructor
    · intro h
      cases h
      exact ⟨rfl, rfl, fun n hn => absurd hn (Nat.not_lt_zero n)⟩
    · rintro ⟨h, rfl, _⟩
      cases h
      rfl
  | chunk :: chunks, buffer, rest, events, _ => by
    have hsplit := splitBlank_append (buffer ++ chunk) chunks.flatten
    rw [append_assoc] at hsplit
    rw [pushAll, flatten_cons, hsplit, readFrames_append, fits_cons]
    simp only [bind_eq_ok, Prod.exists, push_eq_ok]
    constructor
    · rintro ⟨front, _, ⟨hfront, rfl, hfits⟩, back, _, hpush, heq⟩
      obtain ⟨hback, hafter, hlater⟩ := (pushAll_eq_ok (splitBlank_rest _)).mp hpush
      cases heq
      subst hafter
      exact ⟨⟨front, hfront, back, hback, rfl⟩, rfl, hfits, hlater⟩
    · rintro ⟨⟨front, hfront, back, hback, heq⟩, rfl, hfits, hlater⟩
      cases heq
      exact ⟨front, _, ⟨hfront, rfl, hfits⟩, back, _,
        (pushAll_eq_ok (splitBlank_rest _)).mpr ⟨hback, rfl, hlater⟩, rfl⟩

/-- A stream is decoded when its frames can be read, the rest is white space
and what waits in the buffer fits after every chunk. -/
theorem decode_eq_ok {chunks : List Bytes} {events : List String} :
    decode utf8Error chunks = .ok events ↔
      readFrames utf8Error (splitBlank chunks.flatten).1 = .ok events ∧
        (splitBlank chunks.flatten).2.all isAsciiWhitespace = true ∧ Fits [] chunks := by
  rw [decode]
  simp only [bind_eq_ok, Prod.exists, pushAll_eq_ok (show splitBlank [] = ([], []) from rfl),
    nil_append, finish]
  constructor
  · rintro ⟨_, _, ⟨hread, rfl, hfits⟩, _, hfinish, heq⟩
    cases heq
    split at hfinish
    · rename_i hspace
      exact ⟨hread, hspace, hfits⟩
    · cases hfinish
  · rintro ⟨hread, hspace, hfits⟩
    exact ⟨events, _, ⟨hread, rfl, hfits⟩, (), by rw [if_pos hspace], rfl⟩

/-- The events of a stream: its frames between blank lines, each with its data
lines joined. -/
def streamEvents (utf8Error : Bytes → String) (stream : Bytes) :
    Except TessivumError (List String) :=
  ((splitBlank stream).1.mapM (eventData utf8Error)).map List.reduceOption

theorem readFrames_eq_ok : ∀ {frames : List Bytes} {events : List String},
    readFrames utf8Error frames = .ok events →
    (frames.mapM (eventData utf8Error)).map List.reduceOption = .ok events
  | [], _, h => h
  | frame :: rest, events, h => by
    simp only [readFrames_cons, bind_eq_ok] at h
    obtain ⟨data, hframe, _, hrest, heq⟩ := h
    cases heq
    have hdata : eventData utf8Error frame = .ok data := by
      rw [readFrame] at hframe
      split at hframe
      · cases hframe
      · exact hframe
    have hmore := readFrames_eq_ok hrest
    rw [mapM_cons, hdata, ok_bind]
    cases hdatas : rest.mapM (eventData utf8Error) with
    | error e =>
      rw [hdatas] at hmore
      cases hmore
    | ok datas =>
      rw [hdatas] at hmore
      cases hmore
      cases data <;> rfl

def GoodFrame (frame : Bytes) : Prop :=
  frame.length ≤ maxSseEventBytes ∧ frame.toByteArray.IsValidUTF8

/-- A stream the decoder takes in one piece. -/
structure Acceptable (stream : Bytes) : Prop where
  frames : ∀ frame ∈ (splitBlank stream).1, GoodFrame frame
  space : (splitBlank stream).2.all isAsciiWhitespace = true
  small : (splitBlank stream).2.length ≤ maxSseEventBytes

theorem readFrame_ok (utf8Error : Bytes → String) {frame : Bytes} :
    (∃ data, readFrame utf8Error frame = .ok data) ↔ GoodFrame frame := by
  rw [readFrame, GoodFrame]
  split
  · rename_i hlarge
    refine ⟨?_, fun h => absurd h.1 (by omega)⟩
    rintro ⟨_, h⟩
    cases h
  · rename_i hsmall
    rw [and_iff_right (by omega), eventData, String.fromUTF8?]
    by_cases hvalid : frame.toByteArray.IsValidUTF8
    · rw [dif_pos hvalid]
      exact iff_of_true ⟨_, rfl⟩ hvalid
    · rw [dif_neg hvalid]
      refine iff_of_false ?_ hvalid
      rintro ⟨_, h⟩
      cases h

theorem readFrames_ok (utf8Error : Bytes → String) {frames : List Bytes} :
    (∃ events, readFrames utf8Error frames = .ok events) ↔ ∀ frame ∈ frames, GoodFrame frame := by
  induction frames with
  | nil => exact iff_of_true ⟨[], rfl⟩ nofun
  | cons frame rest ih =>
    rw [forall_mem_cons, ← ih, ← readFrame_ok utf8Error, readFrames_cons]
    simp only [bind_eq_ok]
    constructor
    · rintro ⟨_, data, hdata, more, hmore, _⟩
      exact ⟨⟨data, hdata⟩, more, hmore⟩
    · rintro ⟨⟨data, hdata⟩, more, hmore⟩
      exact ⟨_, data, hdata, more, hmore, rfl⟩

theorem fits_whole {stream : Bytes} :
    Fits [] [stream] ↔ (splitBlank stream).2.length ≤ maxSseEventBytes := by
  rw [fits_cons, nil_append]
  exact and_iff_left fun n hn => absurd hn (Nat.not_lt_zero n)

theorem Fits.whole {chunks : List Bytes} (h : Fits [] chunks) : Fits [] [chunks.flatten] := by
  rw [fits_whole]
  cases hn : chunks.length with
  | zero =>
    rw [length_eq_zero_iff.mp hn]
    exact Nat.zero_le _
  | succ n =>
    have hlast := h n (by omega)
    rwa [← hn, take_length] at hlast

/-- What the decoder makes of a stream in pieces is what it makes of it in one
piece, exactly when a stream it takes in one piece leaves no more than the
limit behind its last blank line after every piece. -/
theorem split_independent_iff (utf8Error : Bytes → String) (chunks : List Bytes) :
    (∀ events, (decode utf8Error chunks = .ok events ↔
        decode utf8Error [chunks.flatten] = .ok events) ∧
      (decode utf8Error chunks = .ok events → streamEvents utf8Error chunks.flatten = .ok events)) ↔
    (Acceptable chunks.flatten → ∀ n < chunks.length,
      (splitBlank (chunks.take (n + 1)).flatten).2.length ≤ maxSseEventBytes) := by
  have hwhole : ∀ events, decode utf8Error [chunks.flatten] = .ok events ↔
      readFrames utf8Error (splitBlank chunks.flatten).1 = .ok events ∧
        (splitBlank chunks.flatten).2.all isAsciiWhitespace = true ∧
        Fits [] [chunks.flatten] := fun events => by
    rw [decode_eq_ok, flatten_singleton]
  constructor
  · intro h haccept
    obtain ⟨events, hread⟩ := (readFrames_ok utf8Error).mpr haccept.frames
    have hdecode := (hwhole events).mpr ⟨hread, haccept.space, fits_whole.mpr haccept.small⟩
    have hfits := (decode_eq_ok.mp ((h events).1.mpr hdecode)).2.2
    exact fun n hn => by simpa using hfits n hn
  · intro h events
    refine ⟨⟨fun hdecode => ?_, fun hdecode => ?_⟩, fun hdecode => ?_⟩
    · obtain ⟨hread, hspace, hfits⟩ := decode_eq_ok.mp hdecode
      exact (hwhole events).mpr ⟨hread, hspace, hfits.whole⟩
    · obtain ⟨hread, hspace, hfits⟩ := (hwhole events).mp hdecode
      have hfits' := h ⟨(readFrames_ok utf8Error).mp ⟨events, hread⟩, hspace, fits_whole.mp hfits⟩
      exact decode_eq_ok.mpr ⟨hread, hspace, fun n hn => by simpa using hfits' n hn⟩
    · exact readFrames_eq_ok (decode_eq_ok.mp hdecode).1

theorem splitFrom_replicate (frame rest : Bytes) (n : Nat) :
    splitFrom frame (List.replicate n 97 ++ rest) =
      splitFrom (frame ++ List.replicate n 97) rest := by
  induction n generalizing frame with
  | zero => rw [replicate_zero, nil_append, append_nil]
  | succ n ih =>
    rw [replicate_succ, cons_append, splitFrom, ih, append_assoc]
    · rfl
    · simp
    · simp

theorem acceptable_replicate (n : Nat) (h : n ≤ maxSseEventBytes) :
    Acceptable (List.replicate n 97 ++ [10, 10]) := by
  have hsplit : splitBlank (List.replicate n 97 ++ [10, 10]) = ([List.replicate n 97], []) := by
    rw [splitBlank, splitFrom_replicate, nil_append]
    rfl
  have hutf8 : (List.replicate n 'a').utf8Encode = (List.replicate n (97 : UInt8)).toByteArray := by
    have hone : String.utf8EncodeChar 'a' = [97] := by decide
    rw [List.utf8Encode, flatMap_replicate, hone]
    simp
  constructor
  · rw [hsplit, forall_mem_singleton, GoodFrame, length_replicate, ← hutf8]
    exact ⟨h, ByteArray.isValidUTF8_utf8Encode⟩
  · rw [hsplit]
    rfl
  · rw [hsplit]
    exact Nat.zero_le _

/-- A frame of the largest size is taken in one piece, and refused when its
blank line comes in two. -/
theorem split_blank_line_refused :
    (decode (fun _ => "") [List.replicate maxSseEventBytes 97 ++ [10, 10]]).isOk = true ∧
      (decode (fun _ => "") [List.replicate maxSseEventBytes 97 ++ [10], [10]]).isOk = false := by
  have haccept := acceptable_replicate maxSseEventBytes (le_refl _)
  obtain ⟨events, _⟩ := (readFrames_ok fun _ => "").mpr haccept.frames
  constructor
  · have hdecode : decode (fun _ => "") [List.replicate maxSseEventBytes 97 ++ [10, 10]] =
        .ok events := decode_eq_ok.mpr ⟨by rwa [flatten_singleton],
      by rw [flatten_singleton]; exact haccept.space, fits_whole.mpr haccept.small⟩
    rw [hdecode]
    rfl
  · cases hdecode : decode (fun _ => "") [List.replicate maxSseEventBytes 97 ++ [10], [10]] with
    | error e => rfl
    | ok events =>
      have hfits := (decode_eq_ok.mp hdecode).2.2 0 (by simp)
      have hsplit : splitBlank (List.replicate maxSseEventBytes 97 ++ [10]) =
          ([], List.replicate maxSseEventBytes 97 ++ [10]) := by
        rw [splitBlank, splitFrom_replicate, nil_append]
        rfl
      rw [nil_append, take_succ_cons, take_zero, flatten_singleton, hsplit,
        length_append, length_replicate] at hfits
      exact absurd hfits (Nat.not_succ_le_self _)

end Tessivum.Llm.Sse
