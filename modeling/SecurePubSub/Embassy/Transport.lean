import SecurePubSub.Data.Chunks
import SecurePubSub.Protocol.Types

namespace SecurePubSub.Embassy

open SecurePubSub.Data SecurePubSub.Protocol

/-! Framing of an Embassy Agent's stream: a length prefix of four bytes, then the frame.

The transport is the one that `new` builds, without a deadline of its own. What the stream
does is a parameter: `Writes` says that it keeps what is written to it, in order, and
`ByteReader.Delivers` that it hands out a fixed string in chunks of any length.
-/

/-- Failure returned by the framed transport. -/
inductive TransportError (Failure : Type) where
  | io (reason : Failure)
  | disconnected
  | invalidFrame
deriving DecidableEq

inductive ReadFailure (Failure : Type) where
  | io (reason : Failure)
  | disconnected
  | invalidFrame

def ReadFailure.toError {Failure : Type} : ReadFailure Failure → TransportError Failure
  | .io reason => .io reason
  | .disconnected => .disconnected
  | .invalidFrame => .invalidFrame

/-- Full-duplex stream below the transport. -/
structure EmbassyIo (State Failure : Type) extends ByteReader State Failure where
  writeAll : Bytes → State → Except Failure Unit × State
  flush : State → Except Failure Unit × State

namespace EmbassyIo

variable {State Failure : Type} (io : EmbassyIo State Failure)

def writeFrame (frame : Bytes) (state : State) : Except Failure Unit × State :=
  match io.writeAll (beBytes 4 frame.length) state with
  | (.error reason, after) => (.error reason, after)
  | (.ok (), prefixed) =>
      match io.writeAll frame prefixed with
      | (.error reason, after) => (.error reason, after)
      | (.ok (), written) => io.flush written

def send (frame : Bytes) (state : State) : Except (TransportError Failure) Unit × State :=
  if maxFrameLen < frame.length then
    (.error .invalidFrame, state)
  else
    match io.writeFrame frame state with
    | (.error reason, after) => (.error (.io reason), after)
    | (.ok (), after) => (.ok (), after)

/-- The bytes that fill a buffer of the length `wanted`, read with at most `reads` calls. -/
def readExact (reads wanted : Nat) (state : State) :
    Option (Except (ReadFailure Failure) Bytes × State) :=
  io.fill ReadFailure.io ReadFailure.disconnected reads wanted state

/-- The frame that is put into a buffer of the length `outputLen`. -/
def readFrame (reads outputLen : Nat) (state : State) :
    Option (Except (ReadFailure Failure) Bytes × State) :=
  match io.readExact reads 4 state with
  | some (.ok bytes, after) =>
      let length := beNat bytes
      if maxFrameLen < length ∨ outputLen < length then
        some (.error .invalidFrame, after)
      else
        io.readExact reads length after
  | unread => unread

def receive (reads outputLen : Nat) (state : State) :
    Option (Except (TransportError Failure) Bytes × State) :=
  (io.readFrame reads outputLen state).map fun (result, after) =>
    (result.mapError ReadFailure.toError, after)

def sends : List Bytes → State → List (Except (TransportError Failure) Unit) × State
  | [], state => ([], state)
  | frame :: rest, state =>
      let (result, after) := io.send frame state
      let (results, last) := sends rest after
      (result :: results, last)

def receives (reads outputLen : Nat) :
    Nat → State → Option (List (Except (TransportError Failure) Bytes) × State)
  | 0, state => some ([], state)
  | count + 1, state =>
      match io.receive reads outputLen state with
      | none => none
      | some (result, after) =>
          (receives reads outputLen count after).map fun (results, last) =>
            (result :: results, last)

/-- The stream keeps all bytes that are written to it, in order. -/
structure Writes (written : State → Bytes) : Prop where
  writeAll : ∀ bytes state, ∃ after, io.writeAll bytes state = (.ok (), after) ∧
    written after = written state ++ bytes
  flush : ∀ state, ∃ after, io.flush state = (.ok (), after) ∧ written after = written state

end EmbassyIo

def framed (frame : Bytes) : Bytes := beBytes 4 frame.length ++ frame

/-- The frames that lie wholly within the first `cut` bytes of the stream. -/
def completeWithin : Nat → List Bytes → List Bytes
  | _, [] => []
  | cut, frame :: rest =>
      if (framed frame).length ≤ cut then
        frame :: completeWithin (cut - (framed frame).length) rest
      else
        []

@[simp] theorem framed_length (frame : Bytes) : (framed frame).length = 4 + frame.length := by
  simp [framed]

theorem completeWithin_all {frames : List Bytes} {cut : Nat}
    (whole : (frames.flatMap framed).length ≤ cut) : completeWithin cut frames = frames := by
  induction frames generalizing cut with
  | nil => rfl
  | cons frame rest ih =>
      rw [List.flatMap_cons, List.length_append] at whole
      have first : (framed frame).length ≤ cut := by omega
      have others : (rest.flatMap framed).length ≤ cut - (framed frame).length := by omega
      rw [completeWithin, if_pos first, ih others]

namespace EmbassyIo

variable {State Failure : Type} {io : EmbassyIo State Failure} {written remaining : State → Bytes}
  {frame rest : Bytes} {frames : List Bytes} {state : State} {reads : Nat}

theorem Writes.send (writes : io.Writes written) (bounded : frame.length ≤ maxFrameLen)
    (state : State) :
    ∃ after, io.send frame state = (.ok (), after) ∧
      written after = written state ++ framed frame := by
  obtain ⟨prefixed, wrotePrefix, kept⟩ := writes.writeAll (beBytes 4 frame.length) state
  obtain ⟨filled, wroteFrame, keptFrame⟩ := writes.writeAll frame prefixed
  obtain ⟨flushed, flush, same⟩ := writes.flush filled
  have wrote : io.writeFrame frame state = (.ok (), flushed) := by
    rw [writeFrame, wrotePrefix]
    simp only [wroteFrame, flush]
  refine ⟨flushed, ?_, ?_⟩
  · rw [EmbassyIo.send, if_neg (Nat.not_lt.mpr bounded), wrote]
  · rw [same, keptFrame, kept, List.append_assoc, framed]

theorem Writes.sends (writes : io.Writes written)
    (bounded : ∀ frame ∈ frames, frame.length ≤ maxFrameLen) (state : State) :
    (io.sends frames state).1 = frames.map (fun _ => .ok ()) ∧
      written (io.sends frames state).2 = written state ++ frames.flatMap framed := by
  induction frames generalizing state with
  | nil => exact ⟨rfl, (List.append_nil _).symm⟩
  | cons frame rest ih =>
      obtain ⟨after, sent, kept⟩ := writes.send (bounded frame List.mem_cons_self) state
      obtain ⟨results, others⟩ := ih (fun frame member => bounded frame (.tail _ member)) after
      constructor
      · simp only [EmbassyIo.sends, sent, results, List.map_cons]
      · simp only [EmbassyIo.sends, sent, others, kept, List.flatMap_cons, List.append_assoc]

/-- A prefix that announces a frame of permitted length is followed by reading that frame. -/
theorem receive_of_announced {length outputLen : Nat} {after : State}
    (prefixed : io.readExact reads 4 state = some (.ok (beBytes 4 length), after))
    (bounded : length ≤ maxFrameLen) (fits : length ≤ outputLen) :
    io.receive reads outputLen state =
      (io.readExact reads length after).map fun (result, last) =>
        (result.mapError ReadFailure.toError, last) := by
  have small : length < 256 ^ 4 := Nat.lt_of_le_of_lt bounded (by decide)
  have permitted : ¬(maxFrameLen < length ∨ outputLen < length) := by omega
  rw [receive, readFrame, prefixed]
  simp only [beNat_beBytes 4 small, if_neg permitted]

theorem receive_complete (delivers : io.Delivers remaining)
    (enough : maxFrameLen ≤ reads) (bounded : frame.length ≤ maxFrameLen)
    (holds : remaining state = framed frame ++ rest) :
    ∃ after, io.receive reads maxFrameLen state = some (.ok frame, after) ∧
      remaining after = rest := by
  have prefixLength : (beBytes 4 frame.length).length = 4 := beBytes_length 4 _
  have prefixEnough : (beBytes 4 frame.length).length ≤ reads := by
    rw [prefixLength]
    exact Nat.le_trans (by decide) enough
  rw [framed, List.append_assoc] at holds
  obtain ⟨prefixed, readPrefix, left⟩ := delivers.fill_enough prefixEnough holds
  rw [prefixLength] at readPrefix
  obtain ⟨after, readPayload, final⟩ :=
    delivers.fill_enough (Nat.le_trans bounded enough) left
  refine ⟨after, ?_, final⟩
  rw [receive_of_announced readPrefix bounded bounded, readExact, readPayload]
  rfl

theorem receive_cut (delivers : io.Delivers remaining)
    (enough : maxFrameLen ≤ reads) (bounded : frame.length ≤ maxFrameLen) {cut : Nat}
    (inside : cut < (framed frame).length) (holds : remaining state = (framed frame).take cut) :
    ∃ after, io.receive reads maxFrameLen state = some (.error .disconnected, after) ∧
      remaining after = [] := by
  have prefixEnough : 4 ≤ reads := Nat.le_trans (by decide) enough
  have prefixLength : (beBytes 4 frame.length).length = 4 := beBytes_length 4 _
  rw [framed_length] at inside
  by_cases short : cut < 4
  · have less : (remaining state).length < 4 := by
      rw [holds, List.length_take]
      omega
    obtain ⟨after, read, empty⟩ := delivers.fill_short prefixEnough less
    refine ⟨after, ?_, empty⟩
    rw [receive, readFrame, readExact, read]
    rfl
  · have split : remaining state = beBytes 4 frame.length ++ frame.take (cut - 4) := by
      rw [holds, framed, List.take_append, prefixLength, List.take_of_length_le (by omega)]
    rw [← prefixLength] at prefixEnough
    obtain ⟨prefixed, readPrefix, left⟩ := delivers.fill_enough prefixEnough split
    rw [prefixLength] at readPrefix
    have less : (remaining prefixed).length < frame.length := by
      rw [left, List.length_take]
      omega
    obtain ⟨after, read, empty⟩ := delivers.fill_short (Nat.le_trans bounded enough) less
    refine ⟨after, ?_, empty⟩
    rw [receive_of_announced readPrefix bounded bounded, readExact, read]
    rfl

theorem receive_ended (delivers : io.Delivers remaining) (enough : maxFrameLen ≤ reads)
    (ended : remaining state = []) :
    ∃ after, io.receive reads maxFrameLen state = some (.error .disconnected, after) ∧
      remaining after = [] := by
  have nothing : remaining state = (framed []).take 0 := ended
  exact receive_cut delivers enough (Nat.zero_le _) (Nat.succ_pos 3) nothing

theorem receives_ended (delivers : io.Delivers remaining) (enough : maxFrameLen ≤ reads)
    (ended : remaining state = []) (count : Nat) :
    ∃ last, io.receives reads maxFrameLen count state =
      some (List.replicate count (.error .disconnected), last) := by
  induction count generalizing state with
  | zero => exact ⟨state, rfl⟩
  | succ count ih =>
      obtain ⟨after, received, empty⟩ := receive_ended delivers enough ended
      obtain ⟨last, others⟩ := ih empty
      refine ⟨last, ?_⟩
      rw [receives, received]
      simp only [others, Option.map_some, List.replicate_succ]

theorem receives_within (delivers : io.Delivers remaining) (enough : maxFrameLen ≤ reads)
    (bounded : ∀ frame ∈ frames, frame.length ≤ maxFrameLen) {cut : Nat}
    (holds : remaining state = (frames.flatMap framed).take cut) (extra : Nat) :
    ∃ last, io.receives reads maxFrameLen ((completeWithin cut frames).length + extra) state =
      some ((completeWithin cut frames).map .ok ++ List.replicate extra (.error .disconnected),
        last) := by
  induction frames generalizing cut state with
  | nil =>
      rw [List.flatMap_nil, List.take_nil] at holds
      rw [completeWithin, List.length_nil, Nat.zero_add]
      exact receives_ended delivers enough holds extra
  | cons frame rest ih =>
      have boundedFrame := bounded frame List.mem_cons_self
      rw [List.flatMap_cons] at holds
      by_cases complete : (framed frame).length ≤ cut
      · rw [List.take_append, List.take_of_length_le complete] at holds
        obtain ⟨after, received, left⟩ := receive_complete delivers enough boundedFrame holds
        obtain ⟨last, others⟩ := ih (fun frame member => bounded frame (.tail _ member)) left
        refine ⟨last, ?_⟩
        rw [completeWithin, if_pos complete, List.length_cons, Nat.add_right_comm, receives,
          received]
        simp only [others, Option.map_some, List.map_cons, List.cons_append]
      · have inside := Nat.lt_of_not_le complete
        rw [List.take_append_of_le_length (Nat.le_of_lt inside)] at holds
        obtain ⟨after, received, empty⟩ := receive_cut delivers enough boundedFrame inside holds
        rw [completeWithin, if_neg complete, List.length_nil, Nat.zero_add]
        cases extra with
        | zero => exact ⟨state, rfl⟩
        | succ extra =>
            obtain ⟨last, others⟩ := receives_ended delivers enough empty extra
            refine ⟨last, ?_⟩
            rw [receives, received]
            simp only [others, Option.map_some, List.map_nil, List.nil_append,
              List.replicate_succ]

/-- Whatever the chunks, and wherever the stream of the sent frames is cut off, the receiver
gets the frames that arrived whole, in order, and then only the end of the stream. Filling a
buffer takes at most as many reads as it has bytes, on every stream. -/
theorem framing_lossless {Sender Receiver Other Fault Error : Type}
    {io : EmbassyIo Sender Failure} {written : Sender → Bytes} (writes : io.Writes written)
    {peer : EmbassyIo Receiver Fault} {remaining : Receiver → Bytes}
    (delivers : peer.Delivers remaining) (any : EmbassyIo Other Error) (frames : List Bytes)
    (bounded : ∀ frame ∈ frames, frame.length ≤ maxFrameLen) (sender : Sender)
    {stream : Bytes} (sent : written (io.sends frames sender).2 = written sender ++ stream)
    {receiver : Receiver} (cut : Nat) (arrives : remaining receiver = stream.take cut)
    {reads : Nat} (enough : maxFrameLen ≤ reads) (extra : Nat) :
    (io.sends frames sender).1 = frames.map (fun _ => .ok ()) ∧
      (∃ last, peer.receives reads maxFrameLen ((completeWithin cut frames).length + extra)
          receiver =
        some ((completeWithin cut frames).map .ok ++ List.replicate extra (.error .disconnected),
          last)) ∧
      (stream.length ≤ cut → completeWithin cut frames = frames) ∧
      ∀ wanted state, ∃ result, ∀ reads, wanted ≤ reads →
        any.readExact reads wanted state = some result := by
  obtain ⟨results, appended⟩ := writes.sends bounded sender
  have same : stream = frames.flatMap framed := List.append_cancel_left (sent.symm.trans appended)
  subst same
  refine ⟨results, ?_, completeWithin_all, ?_⟩
  · exact receives_within delivers enough bounded arrives extra
  · intro wanted state
    exact any.fill_terminates wanted state

/-- A stream that keeps what is written and hands out its input in the given chunks. -/
def fragmented (Failure : Type) : EmbassyIo ((List Nat × Bytes) × Bytes) Failure where
  read wanted state :=
    (((chunkReader Failure).read wanted state.1).1,
      (((chunkReader Failure).read wanted state.1).2, state.2))
  read_le := fun read => (chunkReader Failure).read_le read
  writeAll bytes state := (.ok (), (state.1, state.2 ++ bytes))
  flush state := (.ok (), state)

theorem fragmented_writes (Failure : Type) : (fragmented Failure).Writes Prod.snd where
  writeAll _ _ := ⟨_, rfl, rfl⟩
  flush _ := ⟨_, rfl, rfl⟩

theorem fragmented_delivers (Failure : Type) :
    (fragmented Failure).Delivers (fun state => state.1.2) where
  chunk := by
    intro wanted state positive
    obtain ⟨bytes, after, read, split, last⟩ :=
      (chunkReader_delivers Failure).chunk state.1 positive
    refine ⟨bytes, (after, state.2), ?_, split, last⟩
    change (((chunkReader Failure).read wanted state.1).1,
      (((chunkReader Failure).read wanted state.1).2, state.2)) = _
    rw [read]

theorem sample_framing_lossless :
    ∃ last, (fragmented Empty).receives maxFrameLen maxFrameLen 3
        (([1, 2, 4], [0, 0, 0, 0, 0, 0, 0, 3, 7, 8]), []) =
      some ([.ok [], .error .disconnected, .error .disconnected], last) :=
  (framing_lossless (fragmented_writes Empty) (fragmented_delivers Empty) (fragmented Empty)
    [[], [7, 8, 9]] (by decide +kernel) (([], []), []) rfl 10 rfl (Nat.le_refl _) 2).2.1

end EmbassyIo

end SecurePubSub.Embassy
