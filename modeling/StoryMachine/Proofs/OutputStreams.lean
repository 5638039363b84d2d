import StoryMachine.Proofs.Assignments
import StoryMachine.Proofs.Breaches
import StoryMachine.Proofs.InstructionForms
import StoryMachine.Proofs.Restarts

/-!
# Output streams

What each operation on the output streams does: to the screen, to the transcript,
and to the tables of the memory streams. Text that is printed to a memory stream is
written behind what the stream has taken so far, and the count is written in front
when the stream is closed.
-/

namespace StoryMachine

open StoryMachine.Assembly (IsByte byteRun_of_carries)

/-! ## Codes -/

private theorem Zscii.ofCodePoint_nonneg (extras : Text) (c : CodePoint) : 0 ≤ ofCodePoint extras c := by
  unfold ofCodePoint
  cases found : ofCodePoint? extras c with
  | none => decide
  | some code =>
      rw [Option.getD_some]
      unfold ofCodePoint? at found
      split at found
      · cases found
        decide
      split at found
      · cases found
        exact Int.natCast_nonneg c
      · cases place : extras.findIdx? (· == c) with
        | none =>
            rw [place] at found
            cases found
        | some index =>
            rw [place] at found
            cases found
            exact Int.add_nonneg (by decide) (Int.natCast_nonneg index)

/-- Codes of characters are not negative. -/
theorem Codec.toZscii_nonneg (codec : Codec) (c : CodePoint) : 0 ≤ codec.toZscii c :=
  Zscii.ofCodePoint_nonneg codec.extras c

/-! ## Tables -/

namespace Image

variable {image other : Image}

/-- Bytes stand in every image of the same size that reads the same where they are. -/
theorem Carries.of_peek {address : Int} {bytes : List UInt8} (size : other.size = image.size)
    (same : ∀ place : Nat, address ≤ place → place < address + bytes.length →
      other.peek place = image.peek place)
    (carried : image.Carries address bytes) : other.Carries address bytes := by
  induction bytes generalizing address with
  | nil => trivial
  | cons byte rest ih =>
      rw [List.length_cons] at same
      obtain ⟨read, later⟩ := carried
      obtain ⟨holds, value⟩ := byte_eq_ok read
      obtain ⟨first, rfl⟩ := Int.eq_ofNat_of_zero_le holds.1
      have others (place : Nat) (least : (first : Int) + 1 ≤ place)
          (most : place < (first : Int) + 1 + rest.length) : other.peek place = image.peek place :=
        same place (by omega) (by omega)
      refine ⟨?_, ih others later⟩
      have holds' : other.Holds first := by
        unfold Holds at holds ⊢
        rw [size]
        exact holds
      rw [byte_of_holds holds', value, Int.toNat_natCast, same first (by omega) (by omega)]

end Image

namespace GameMemory

variable {memory : GameMemory}

/-- The memory with codes at successive addresses. -/
def withCodes (memory : GameMemory) (address : Nat) : List Int → GameMemory
  | [] => memory
  | code :: rest => (memory.withByte address (Byte.ofInt code)).withCodes (address + 1) rest

@[simp] theorem size_withCodes (codes : List Int) (address : Nat) :
    (memory.withCodes address codes).size = memory.size := by
  induction codes generalizing memory address with
  | nil => rfl
  | cons code rest ih => exact (ih _).trans (size_withByte _ _ _)

@[simp] theorem dynamicEnd_withCodes (codes : List Int) (address : Nat) :
    (memory.withCodes address codes).dynamicEnd = memory.dynamicEnd := by
  induction codes generalizing memory address with
  | nil => rfl
  | cons code rest ih => exact ih _

/-- Bytes in front of the codes and behind them stay. -/
theorem peek_withCodes_of_outside {codes : List Int} {address place : Nat}
    (outside : place < address ∨ address + codes.length ≤ place) :
    (memory.withCodes address codes).peek place = memory.peek place := by
  induction codes generalizing memory address with
  | nil => rfl
  | cons code rest ih =>
      rw [List.length_cons] at outside
      have apart : place ≠ address := by omega
      exact (ih (by omega)).trans (peek_withByte_of_ne apart _)

/-- Memory carries the codes that have been put there. -/
theorem carries_withCodes {codes : List Int} {address : Nat}
    (inside : address + codes.length ≤ memory.size) :
    (memory.withCodes address codes).Carries address (codes.map Byte.ofInt) := by
  induction codes generalizing memory address with
  | nil => trivial
  | cons code rest ih =>
      rw [List.length_cons] at inside
      have first : address < memory.size := by omega
      have holds : (memory.withCodes address (code :: rest)).Holds address := by
        unfold Image.Holds
        rw [size_withCodes]
        omega
      have here : (memory.withCodes address (code :: rest)).peek address =
          (Byte.ofInt code).toNat :=
        (peek_withCodes_of_outside (.inl (Nat.lt_succ_self address))).trans
          (peek_withByte_self first _)
      have others : address + 1 + rest.length ≤
          (memory.withByte address (Byte.ofInt code)).size := by
        rw [size_withByte]
        omega
      refine ⟨?_, ih others⟩
      rw [Image.byte_of_holds holds, Int.toNat_natCast, here]

end GameMemory

/-! ## Streams to files -/

namespace Sink

/-- What a sink has been given grows by the text. -/
theorem total_print (sink : Sink) (text : Text) :
    (sink.print text).total = sink.total ++ text := by
  unfold print total
  simp

/-- Writing a stream out leaves all of its text. -/
theorem total_of_flush {sink flushed : Sink} (written : sink.flush = .ok flushed) :
    flushed.total = sink.total := by
  unfold flush at written
  split at written
  · cases written
    rfl
  · split at written
    · cases written
    · cases written
      rfl

end Sink

/-! ## Screens -/

namespace Screen

/-- A screen shows the same text whether or not it is selected. -/
theorem print_active (screen : Screen) (active : Bool) (text : Text) :
    Screen.print { screen with active } text = { screen.print text with active } := by
  unfold print
  split <;> rfl

end Screen

namespace Machine

variable {machine : Machine}

/-- A success on memory is one of the machine. -/
theorem onMemory_of_ok {α : Type} {action : GameMemory.Edit α} {a : α} {memory : GameMemory}
    (outcome : action machine.work.memory = .ok a memory) :
    onMemory action machine = .ok a { machine with work.memory := memory } := by
  refine onWork_of_ok ?_
  unfold Workspace.onMemory Action.focus
  simp only [outcome]

/-! ## Printing -/

/-- A text with characters is sent to the streams, with its codes. -/
theorem print_of_ne_nil {text : Text} (printed : text ≠ []) :
    print text machine = emit text (text.map machine.story.codec.toZscii) machine := by
  unfold print
  rw [if_neg (by simpa using printed)]
  rfl

/-- While no memory stream is open, text goes to the screen and to the transcript. -/
theorem emit_of_closed (closed : machine.memoryStreams = []) (text : Text) (codes : List Int) :
    emit text codes machine = .ok () { machine with
      screen := if machine.screen.active then machine.screen.print text else machine.screen
      transcript :=
        if machine.transcriptActive then machine.transcript.map (·.print text)
        else machine.transcript } := by
  have empty : machine.memoryStreams.isEmpty = true := by
    rw [closed]
    rfl
  unfold emit
  rw [Action.get_bind]
  dsimp only
  rw [if_pos empty]
  cases machine.screen.active <;> cases machine.transcriptActive <;> rfl

/-- The machine with codes in the memory stream in use. -/
def withCodes (machine : Machine) (stream : MemoryStream) (outer : List MemoryStream)
    (codes : List Int) : Machine :=
  { machine with
    work.memory := machine.work.memory.withCodes (stream.table.toNat + 2 + stream.count) codes
    memoryStreams := { stream with count := stream.count + codes.length } :: outer }

variable {stream : MemoryStream} {outer : List MemoryStream}

private theorem withCodes_nil (used : machine.memoryStreams = stream :: outer) :
    machine.withCodes stream outer [] = machine := by
  cases machine
  subst used
  rfl

private theorem writeToStream_eq (code : Int) (used : machine.memoryStreams = stream :: outer)
    (positive : 0 ≤ stream.table)
    (room : stream.table + 2 + stream.count < machine.work.memory.dynamicEnd)
    (whole : machine.work.memory.Whole) :
    writeToStream code machine = .ok () (machine.withCodes stream outer [code]) := by
  obtain ⟨table, placed⟩ := Int.eq_ofNat_of_zero_le positive
  have place : stream.table + 2 + stream.count = (table + 2 + stream.count : Nat) := by omega
  have inside : table + 2 + stream.count < machine.work.memory.size := by
    unfold GameMemory.Whole at whole
    omega
  have written : onMemory (GameMemory.write (stream.table + 2 + stream.count) code) machine =
      .ok () { machine with
        work.memory :=
          machine.work.memory.withByte (table + 2 + stream.count) (Byte.ofInt code) } := by
    rw [place] at room ⊢
    exact onMemory_of_ok (GameMemory.write_eq code room inside)
  unfold writeToStream
  rw [Action.get_bind, used]
  dsimp only
  rw [Action.bind_of_ok written]
  unfold withCodes
  rw [placed, Int.toNat_natCast]
  rfl

/-- Codes are written behind those that the stream has. -/
theorem writeAllToStream_eq {codes : List Int} (used : machine.memoryStreams = stream :: outer)
    (positive : 0 ≤ stream.table)
    (room : stream.table + 2 + stream.count + codes.length ≤ machine.work.memory.dynamicEnd)
    (whole : machine.work.memory.Whole) :
    writeAllToStream codes machine = .ok () (machine.withCodes stream outer codes) := by
  induction codes generalizing machine stream with
  | nil =>
      rw [withCodes_nil used]
      rfl
  | cons code rest ih =>
      rw [List.length_cons] at room
      have first := writeToStream_eq code used positive (by omega) whole
      have others : writeAllToStream rest (machine.withCodes stream outer [code]) = _ :=
        ih rfl positive (by
          unfold withCodes
          dsimp only [List.length_singleton]
          rw [GameMemory.dynamicEnd_withCodes]
          omega) (by
          unfold withCodes GameMemory.Whole at *
          rw [GameMemory.size_withCodes, GameMemory.dynamicEnd_withCodes]
          exact whole)
      unfold writeAllToStream
      rw [Action.bind_of_ok first, others]
      unfold withCodes
      simp only [GameMemory.withCodes, List.length_cons, List.length_nil, Nat.add_assoc,
        Nat.add_comm 1]

/-- While a memory stream is open, it takes the text and nothing else does. -/
theorem emit_of_open {codes : List Int} (used : machine.memoryStreams = stream :: outer)
    (positive : 0 ≤ stream.table)
    (room : stream.table + 2 + stream.count + codes.length ≤ machine.work.memory.dynamicEnd)
    (whole : machine.work.memory.Whole) (text : Text) :
    emit text codes machine = .ok () (machine.withCodes stream outer codes) := by
  unfold emit
  rw [Action.get_bind, used]
  exact writeAllToStream_eq used positive room whole

/-! ## Opening and closing -/

/-- A stream to memory is opened unless as many as there can be are open. -/
theorem openMemoryStream_of_lt (free : machine.memoryStreams.length < maxMemoryStreams)
    (table : Int) :
    openMemoryStream table machine =
      .ok () { machine with memoryStreams := { table } :: machine.memoryStreams } := by
  unfold openMemoryStream
  rw [Action.get_bind, if_neg (Nat.not_le_of_lt free)]
  rfl

/-- With as many streams to memory open as there can be, no other is opened. -/
theorem finalState_openMemoryStream_of_le (full : maxMemoryStreams ≤ machine.memoryStreams.length)
    (table : Int) : (openMemoryStream table).finalState machine = machine := by
  unfold openMemoryStream Action.finalState
  rw [Action.get_bind, if_pos full]
  rfl

/-- Without a stream to memory there is none to close. -/
theorem finalState_closeMemoryStream_of_nil (closed : machine.memoryStreams = []) :
    closeMemoryStream.finalState machine = machine := by
  unfold closeMemoryStream Action.finalState
  rw [Action.get_bind, closed]
  rfl

/-- A stream that is closed leaves its count in front of the codes. -/
theorem closeMemoryStream_eq (used : machine.memoryStreams = stream :: outer)
    (positive : 0 ≤ stream.table) (room : stream.table + 1 < machine.work.memory.dynamicEnd)
    (whole : machine.work.memory.Whole) :
    closeMemoryStream machine = .ok () { machine with
      work.memory := machine.work.memory.withWord stream.table.toNat stream.count
      memoryStreams := outer } := by
  have written := GameMemory.writeWord_eq whole stream.table stream.count
  rw [if_pos ⟨positive, room⟩] at written
  unfold closeMemoryStream
  rw [Action.get_bind, used]
  exact @onMemory_of_ok { machine with memoryStreams := outer } _ _ _ _ written

/-! ## The flag for the transcript -/

/-- Whether there is a transcript is recorded in the header. -/
theorem setTranscriptOn_eq (ready : machine.ready = true) (on : Bool) :
    setTranscriptOn on machine = .ok () { machine with
      work.memory := machine.work.memory.overImage (·.setTranscriptOn on) } := by
  unfold setTranscriptOn
  rw [Action.get_bind, if_pos ready]
  rfl

/-- Writing a stream out changes nothing else and loses no text. -/
theorem finalState_flushSink (part : Machine → Option Sink)
    (withPart : Option Sink → Machine → Machine)
    (same : withPart (part machine) machine = machine) :
    ∃ sink : Option Sink, sink.map Sink.total = (part machine).map Sink.total ∧
      (flushSink part withPart).finalState machine = withPart sink machine := by
  unfold flushSink Action.finalState
  rw [Action.get_bind]
  cases present : part machine with
  | none => exact ⟨part machine, congrArg _ present, same.symm⟩
  | some sink =>
      dsimp only
      cases flushed : sink.flush with
      | error failure => exact ⟨part machine, congrArg _ present, same.symm⟩
      | ok written => exact ⟨some written, congrArg some (Sink.total_of_flush flushed), rfl⟩

/-- Flushing the transcript loses no text. -/
theorem finalState_flushTranscript (machine : Machine) :
    ∃ transcript : Option Sink, transcript.map Sink.total = machine.transcript.map Sink.total ∧
      flushTranscript.finalState machine = { machine with transcript } :=
  finalState_flushSink Machine.transcript (fun transcript machine => { machine with transcript })
    rfl

/-- Flushing the script changes nothing else. -/
theorem finalState_flushScript (machine : Machine) :
    ∃ script : Option Sink, flushScript.finalState machine = { machine with script } := by
  obtain ⟨script, -, written⟩ := finalState_flushSink Machine.script
    (fun script machine => { machine with script }) (Eq.refl machine)
  exact ⟨script, written⟩

end Machine

end StoryMachine
