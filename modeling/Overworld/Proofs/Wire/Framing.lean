import Overworld.Proofs.Wire.Elements
import Overworld.Proofs.Wire.Sizes

set_option autoImplicit false

/-!
Frames on a stream that ends somewhere. Whatever the cut, the payloads whose frames came through whole
are read back in order, and from then on the stream counts as closed. What is too large is refused at
either end, and neither end has touched its payload by then.
-/

namespace Overworld

/-- The stream brings this content, in whatever pieces, and then ends. -/
def ByteStream.Delivers (stream : ByteStream) (content : Bytes) : Prop :=
  ∃ pieces : List Bytes, stream = pieces.map .bytes ∧ pieces.flatten = content

namespace Frame

/-- What there is enough of is taken, however it is cut into pieces, and nothing behind it. -/
theorem take_of_le {pieces : List Bytes} {count : Nat} (later : ByteStream)
    (enough : count ≤ pieces.flatten.length) :
    ∃ left : List Bytes, take (pieces.map .bytes ++ later) count =
        (.ok (pieces.flatten.take count), left.map .bytes ++ later) ∧
      left.flatten = pieces.flatten.drop count := by
  induction pieces generalizing count with
  | nil =>
      obtain rfl : count = 0 := Nat.le_zero.mp enough
      exact ⟨[], by simp [take], rfl⟩
  | cons content rest ih =>
      cases count with
      | zero => exact ⟨content :: rest, by simp [take], rfl⟩
      | succ count =>
          rw [List.flatten_cons, List.length_append] at enough
          rw [List.map_cons, List.cons_append, take, List.flatten_cons]
          by_cases within : count + 1 ≤ content.length
          · refine ⟨content.drop (count + 1) :: rest, ?_, ?_⟩
            · rw [if_pos within, List.take_append_of_le_length within]
              rfl
            · rw [List.drop_append_of_le_length within]
              rfl
          · have others : count + 1 - content.length ≤ rest.flatten.length := by omega
            obtain ⟨left, taken, same⟩ := ih others
            have beyond : content.length ≤ count + 1 := by omega
            refine ⟨left, ?_, ?_⟩
            · rw [if_neg within, taken, List.take_append, List.take_of_length_le beyond]
              rfl
            · rw [same, List.drop_append, List.drop_of_length_le beyond, List.nil_append]

/-- A stream that ends too early is used up. -/
theorem take_of_lt {pieces : List Bytes} {count : Nat} (short : pieces.flatten.length < count) :
    take (pieces.map .bytes) count = (.error .connectionClosed, []) := by
  induction pieces generalizing count with
  | nil =>
      obtain ⟨count, rfl⟩ := Nat.exists_eq_succ_of_ne_zero (Nat.ne_of_gt short)
      rfl
  | cons content rest ih =>
      rw [List.flatten_cons, List.length_append] at short
      obtain ⟨count, rfl⟩ := Nat.exists_eq_succ_of_ne_zero (Nat.ne_of_gt (Nat.zero_lt_of_lt short))
      rw [List.map_cons, take, if_neg (by omega), ih (by omega)]
      rfl

theorem ofLittleEndian_length {payload : Bytes} (fits : payload.length ≤ maxPayload) :
    Wire.ofLittleEndian (Wire.littleEndian 4 payload.length) = payload.length :=
  Wire.ofLittleEndian_littleEndian 4 (Nat.lt_of_le_of_lt fits (by decide))

/-- Behind a length beyond the limit nothing is taken. -/
theorem read_of_large {pieces : List Bytes} {header body : Bytes} (later : ByteStream)
    (content : pieces.flatten = header ++ body) (isHeader : header.length = 4)
    (large : maxPayload < Wire.ofLittleEndian header) :
    ∃ rest : List Bytes, read (pieces.map .bytes ++ later) =
        (.error (.messageTooLarge (Wire.ofLittleEndian header) maxPayload),
          rest.map .bytes ++ later) ∧
      rest.flatten = body := by
  have enough : 4 ≤ pieces.flatten.length := by
    rw [content, List.length_append, isHeader]
    exact Nat.le_add_right 4 _
  obtain ⟨rest, taken, same⟩ := take_of_le later enough
  rw [content, ← isHeader, List.take_left] at taken
  rw [content, ← isHeader, List.drop_left] at same
  refine ⟨rest, ?_, same⟩
  unfold read
  rw [isHeader] at taken
  rw [taken]
  exact if_pos large

/-- A frame that came through whole gives its payload and leaves what follows. -/
theorem read_of_frame {stream : ByteStream} {payload rest : Bytes}
    (fits : payload.length ≤ maxPayload)
    (delivers : stream.Delivers (Wire.littleEndian 4 payload.length ++ payload ++ rest)) :
    (read stream).1 = .ok payload ∧ (read stream).2.Delivers rest := by
  obtain ⟨pieces, rfl, content⟩ := delivers
  have isHeader : (Wire.littleEndian 4 payload.length).length = 4 := Wire.length_littleEndian 4 _
  have size := ofLittleEndian_length fits
  generalize Wire.littleEndian 4 payload.length = header at content isHeader size
  rw [List.append_assoc] at content
  have enough : 4 ≤ pieces.flatten.length := by
    rw [content, List.length_append, isHeader]
    exact Nat.le_add_right 4 _
  obtain ⟨left, isTaken, behind⟩ := take_of_le [] enough
  rw [content, ← isHeader, List.drop_left] at behind
  rw [content, List.take_append_of_le_length (Nat.le_of_eq isHeader.symm),
    List.take_of_length_le (Nat.le_of_eq isHeader)] at isTaken
  have all : payload.length ≤ left.flatten.length := by
    rw [behind, List.length_append]
    exact Nat.le_add_right _ _
  obtain ⟨remaining, body, last⟩ := take_of_le [] all
  rw [behind, List.take_left] at body
  rw [behind, List.drop_left] at last
  simp only [List.append_nil] at isTaken body
  have isRead : read (pieces.map .bytes) = (.ok payload, remaining.map .bytes) := by
    unfold read
    rw [isTaken]
    dsimp only
    rw [size, if_neg (Nat.not_lt.mpr fits), body]
  rw [isRead]
  exact ⟨rfl, remaining, rfl, last⟩

/-- A frame that is cut, in its length or in its payload, closes the stream. -/
theorem read_of_cut {stream : ByteStream} {payload part : Bytes}
    (fits : payload.length ≤ maxPayload)
    (isPart : part <+: Wire.littleEndian 4 payload.length ++ payload)
    (cut : part.length < 4 + payload.length) (delivers : stream.Delivers part) :
    read stream = (.error .connectionClosed, []) := by
  obtain ⟨pieces, rfl, content⟩ := delivers
  have isHeader : (Wire.littleEndian 4 payload.length).length = 4 := Wire.length_littleEndian 4 _
  have size := ofLittleEndian_length fits
  generalize Wire.littleEndian 4 payload.length = header at isPart isHeader size
  unfold read
  by_cases short : part.length < 4
  · rw [take_of_lt (content ▸ short)]
  · have long := Nat.not_lt.mp short
    have enough : 4 ≤ pieces.flatten.length := content ▸ long
    obtain ⟨left, isTaken, behind⟩ := take_of_le [] enough
    have first : part.take 4 = header := by
      obtain ⟨missing, whole⟩ := isPart
      have same := congrArg (List.take 4) whole
      rw [List.take_append_of_le_length long,
        List.take_append_of_le_length (Nat.le_of_eq isHeader.symm),
        List.take_of_length_le (Nat.le_of_eq isHeader)] at same
      exact same
    have few : left.flatten.length < payload.length := by
      rw [behind, content, List.length_drop]
      omega
    simp only [List.append_nil, content, first] at isTaken
    rw [isTaken]
    dsimp only
    rw [size, if_neg (Nat.not_lt.mpr fits), take_of_lt few]

/-- What is left of a stream after so many frames were asked for. -/
def left (stream : ByteStream) : Nat → ByteStream
  | 0 => stream
  | reads + 1 => left (read stream).2 reads

/-- What a stream holds after payloads were written to it one after the other. -/
def written (payloads : List Bytes) : Bytes :=
  payloads.flatMap fun payload => (write payload).toOption.getD []

/-- What is read at this place of a row when only the first `cut` bytes of the payloads' frames come
through: the payload there, if its frame ends by then. -/
def answer (payloads : List Bytes) (cut place : Nat) : Except FrameError Bytes :=
  match payloads[place]? with
  | none => .error .connectionClosed
  | some payload =>
    if (written (payloads.take (place + 1))).length ≤ cut then .ok payload
    else .error .connectionClosed

theorem write_of_lt {payload : Bytes} (large : maxPayload < payload.length) :
    write payload = .error (.messageTooLarge payload.length maxPayload) :=
  if_pos large

theorem written_cons {payload : Bytes} (fits : payload.length ≤ maxPayload) (rest : List Bytes) :
    written (payload :: rest) =
      Wire.littleEndian 4 payload.length ++ payload ++ written rest := by
  unfold written
  rw [List.flatMap_cons, write_of_le fits]
  rfl

theorem length_written_cons {payload : Bytes} (fits : payload.length ≤ maxPayload)
    (rest : List Bytes) :
    (written (payload :: rest)).length = 4 + payload.length + (written rest).length := by
  rw [written_cons fits, List.length_append, List.length_append, Wire.length_littleEndian]

/-- A refused payload leaves no trace. -/
theorem written_of_large {payload : Bytes} (large : maxPayload < payload.length)
    (before after : List Bytes) :
    written (before ++ payload :: after) = written (before ++ after) := by
  unfold written
  rw [List.flatMap_append, List.flatMap_append, List.flatMap_cons, write_of_lt large]
  rfl

theorem written_filter (payloads : List Bytes) :
    written (payloads.filter (·.length ≤ maxPayload)) = written payloads := by
  induction payloads with
  | nil => rfl
  | cons payload rest ih =>
      by_cases fits : payload.length ≤ maxPayload
      · have kept : decide (payload.length ≤ maxPayload) = true := decide_eq_true fits
        simp only [List.filter_cons, kept, if_true]
        rw [written_cons fits, written_cons fits, ih]
      · have dropped : decide (payload.length ≤ maxPayload) = false := decide_eq_false fits
        simp only [List.filter_cons, dropped, Bool.false_eq_true, if_false]
        rw [ih]
        exact (written_of_large (Nat.not_le.mp fits) [] rest).symm

theorem left_nil (reads : Nat) : left [] reads = [] := by
  induction reads with
  | zero => rfl
  | succ reads ih => exact ih

/-- Once a frame was cut, the stream stays closed. -/
theorem closed_of_cut {stream : ByteStream}
    (closed : read stream = (.error .connectionClosed, [])) (reads : Nat) :
    (read (left stream reads)).1 = .error .connectionClosed := by
  cases reads with
  | zero => rw [left, closed]
  | succ reads =>
      rw [left, closed, left_nil]
      rfl

theorem answer_cons_of_le {payload : Bytes} (fits : payload.length ≤ maxPayload)
    (rest : List Bytes) {cut : Nat} (whole : 4 + payload.length ≤ cut) (place : Nat) :
    answer (payload :: rest) cut (place + 1) =
      answer rest (cut - (4 + payload.length)) place := by
  have ends : (written ((payload :: rest).take (place + 1 + 1))).length ≤ cut ↔
      (written (rest.take (place + 1))).length ≤ cut - (4 + payload.length) := by
    rw [List.take_succ_cons, length_written_cons fits]
    omega
  unfold answer
  rw [List.getElem?_cons_succ]
  simp only [ends]

theorem answer_cons_of_lt {payload : Bytes} (fits : payload.length ≤ maxPayload)
    (rest : List Bytes) {cut : Nat} (short : cut < 4 + payload.length) (place : Nat) :
    answer (payload :: rest) cut place = .error .connectionClosed := by
  have ends : ¬ (written ((payload :: rest).take (place + 1))).length ≤ cut := by
    rw [List.take_succ_cons, length_written_cons fits]
    omega
  unfold answer
  cases (payload :: rest)[place]? with
  | none => rfl
  | some other => exact if_neg ends

/-- Every frame that came through whole is read in its turn, and the stream is closed from the first
one on that did not. -/
theorem read_left_of_cut {payloads : List Bytes} (fit : ∀ payload ∈ payloads,
      payload.length ≤ maxPayload) {cut : Nat} {stream : ByteStream}
    (delivers : stream.Delivers ((written payloads).take cut)) (place : Nat) :
    (read (left stream place)).1 = answer payloads cut place := by
  induction payloads generalizing cut stream place with
  | nil =>
      have empty : (written []).take cut = [] := List.take_nil
      rw [empty] at delivers
      have none : ([] : Bytes).length ≤ maxPayload := Nat.zero_le _
      exact closed_of_cut (read_of_cut none List.nil_prefix (by decide) delivers) place
  | cons payload rest ih =>
      obtain ⟨fits, others⟩ := List.forall_mem_cons.mp fit
      have length : (Wire.littleEndian 4 payload.length ++ payload).length = 4 + payload.length := by
        rw [List.length_append, Wire.length_littleEndian]
      rw [written_cons fits] at delivers
      by_cases whole : 4 + payload.length ≤ cut
      · rw [List.take_append, length, List.take_of_length_le (length ▸ whole)] at delivers
        obtain ⟨isPayload, behind⟩ := read_of_frame fits delivers
        cases place with
        | zero =>
            have first : answer (payload :: rest) cut 0 = .ok payload := by
              refine if_pos ?_
              rw [List.take_succ_cons, length_written_cons fits]
              exact whole
            rw [first]
            exact isPayload
        | succ place =>
            rw [answer_cons_of_le fits rest whole]
            exact ih others behind place
      · have short := Nat.not_le.mp whole
        rw [List.take_append_of_le_length (length ▸ Nat.le_of_lt short)] at delivers
        rw [answer_cons_of_lt fits rest short]
        refine closed_of_cut (read_of_cut fits (List.take_prefix _ _) ?_ delivers) place
        rw [List.length_take]
        omega

/-- Payloads of any sizes are written in order, the stream is cut anywhere and delivered in any pieces:
each read in a row gives the next payload that was not refused, as long as its frame came through
whole, and from then on tells that the connection is closed. A payload beyond the limit is refused and
leaves no trace in the stream. A length beyond the limit is refused with every byte behind it still in
the stream, whatever comes later. -/
theorem cut_stream_gives_whole_frames :
    (∀ (payloads : List Bytes) (cut : Nat) (stream : ByteStream),
      stream.Delivers ((written payloads).take cut) → ∀ place,
        (read (left stream place)).1 =
          answer (payloads.filter (·.length ≤ maxPayload)) cut place) ∧
    (∀ payload : Bytes, maxPayload < payload.length →
      write payload = .error (.messageTooLarge payload.length maxPayload) ∧
      ∀ before after, written (before ++ payload :: after) = written (before ++ after)) ∧
    ∀ (pieces : List Bytes) (later : ByteStream) (header body : Bytes),
      pieces.flatten = header ++ body → header.length = 4 →
      maxPayload < Wire.ofLittleEndian header →
      ∃ rest : List Bytes, read (pieces.map .bytes ++ later) =
          (.error (.messageTooLarge (Wire.ofLittleEndian header) maxPayload),
            rest.map .bytes ++ later) ∧
        rest.flatten = body := by
  refine ⟨fun payloads cut stream delivers place => ?_, fun payload large => ?_,
    fun pieces later header body content isHeader large =>
      read_of_large later content isHeader large⟩
  · rw [← written_filter] at delivers
    refine read_left_of_cut (fun payload member => ?_) delivers place
    exact of_decide_eq_true (List.mem_filter.mp member).2
  · exact ⟨write_of_lt large, written_of_large large⟩

/-- Two bytes, none, and one. -/
def threePayloads : List Bytes := [[7, 8], [], [9]]

/-- Twelve bytes of their frames, in pieces that end inside a length and inside a payload. -/
def twelveBytes : ByteStream :=
  [.bytes [2, 0], .bytes [0, 0, 7], .bytes [], .bytes [8, 0, 0, 0, 0, 1, 0]]

theorem third_frame_is_cut :
    twelveBytes.Delivers ((written threePayloads).take 12) ∧
    (read (left twelveBytes 0)).1 = .ok [7, 8] ∧
    (read (left twelveBytes 1)).1 = .ok [] ∧
    (read (left twelveBytes 2)).1 = .error .connectionClosed ∧
    write (List.replicate 65537 0) = .error (.messageTooLarge 65537 65536) ∧
    ∃ rest : List Bytes, read [.bytes [1, 0, 1], .bytes [0, 5], .failure "reset"] =
        (.error (.messageTooLarge 65537 65536), rest.map .bytes ++ [.failure "reset"]) ∧
      rest.flatten = [5] := by
  have delivers : twelveBytes.Delivers ((written threePayloads).take 12) :=
    ⟨[[2, 0], [0, 0, 7], [], [8, 0, 0, 0, 0, 1, 0]], rfl, by decide⟩
  obtain ⟨reads, refusals, lengths⟩ := cut_stream_gives_whole_frames
  have row := reads threePayloads 12 twelveBytes delivers
  have long : (List.replicate 65537 (0 : UInt8)).length = 65537 := List.length_replicate
  have large : maxPayload < (List.replicate 65537 (0 : UInt8)).length := by
    rw [long]
    decide
  have refused := (refusals (List.replicate 65537 0) large).1
  rw [long] at refused
  exact ⟨delivers, (row 0).trans (by decide), (row 1).trans (by decide), (row 2).trans (by decide),
    refused, lengths [[1, 0, 1], [0, 5]] [.failure "reset"] [1, 0, 1, 0] [5] rfl rfl (by decide)⟩

end Frame

end Overworld
