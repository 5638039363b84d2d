import Mathlib.Data.List.Infix
import StoryMachine.Proofs.OutputStreams
import StoryMachine.Proofs.Protection

/-!
# Output routing

Where printed text goes. For any orders to the output streams, the screen and the
transcript get the text that was printed while they were selected and no memory
stream was open, and the table of a memory stream gets the codes of the text that
was printed while that stream was the innermost.

Orders are listed from the newest on.
-/

namespace StoryMachine

open StoryMachine.Assembly (IsByte byteRun_of_carries)

/-! ## Orders -/

/-- An order to the output streams. A story can also turn the transcript on and off by writing the
byte of its header that has the flag. -/
inductive OutputOrder where
  | select (stream table : Int)
  | deselect (stream : Int)
  | print (text : Text)
  | newLine
  | writeFlags (value : Int)
deriving DecidableEq

namespace OutputOrder

/-- What a machine does on an order. -/
def action : OutputOrder → Play Unit
  | select stream table => Machine.selectOutput stream table
  | deselect stream => Machine.deselectOutput stream
  | print text => Machine.print text
  | newLine => Machine.newLine
  | writeFlags value => Machine.onMemory (GameMemory.write 0x11 value)

/-- The text that an order prints. -/
def printed : OutputOrder → List Text
  | print text => if text = [] then [] else [text]
  | newLine => [[0x0a]]
  | select .. | deselect _ | writeFlags _ => []

end OutputOrder

/-- A memory stream that was opened: its table, and the number of orders before that. -/
structure OpenTable where
  table : Int
  since : Nat
deriving DecidableEq

/-- The streams that are selected. Memory streams are listed from the innermost on. -/
structure OutputSelection where
  screen : Bool
  transcript : Bool
  tables : List OpenTable := []
deriving DecidableEq

namespace OutputSelection

/-- The selection after one more order. A memory stream is not opened where too many are open. -/
def obey (selection : OutputSelection) (before : Nat) : OutputOrder → OutputSelection
  | .select stream table =>
      if stream = 1 then { selection with screen := true }
      else if stream = 2 then { selection with transcript := true }
      else if stream = 3 ∧ selection.tables.length < Machine.maxMemoryStreams then
        { selection with tables := { table, since := before } :: selection.tables }
      else selection
  | .deselect stream =>
      if stream = 1 then { selection with screen := false }
      else if stream = 2 then { selection with transcript := false }
      else if stream = 3 then { selection with tables := selection.tables.tail }
      else selection
  | .writeFlags value => { selection with transcript := value % 2 = 1 }
  | .print _ | .newLine => selection

/-- The selection after orders. -/
def after (start : OutputSelection) : List OutputOrder → OutputSelection
  | [] => start
  | order :: earlier => (start.after earlier).obey earlier.length order

/-- What was printed while the selection was of some kind. -/
def received (start : OutputSelection) (kind : OutputSelection → Bool) :
    List OutputOrder → List Text
  | [] => []
  | order :: earlier =>
      if kind (start.after earlier) then start.received kind earlier ++ order.printed
      else start.received kind earlier

/-- Text is shown on the screen. -/
def shows (selection : OutputSelection) : Bool :=
  selection.tables.isEmpty && selection.screen

/-- Text is recorded in the transcript. -/
def records (selection : OutputSelection) : Bool :=
  selection.tables.isEmpty && selection.transcript

/-- Text is written to the table of a memory stream: the stream is the innermost. -/
def fills (stream : OpenTable) (selection : OutputSelection) : Bool :=
  selection.tables.head? = some stream

/-- The codes that a memory stream has taken. -/
def codes (start : OutputSelection) (codec : Codec) (orders : List OutputOrder)
    (stream : OpenTable) : List Int :=
  (start.received (fills stream) orders).flatten.map codec.toZscii

/-- Open tables that hold some codes each: they lie behind the header, inside dynamic memory and
apart from one another. -/
structure Fits (dynamicEnd : Int) (tables : List OpenTable) (codes : OpenTable → List Int) :
    Prop where
  headed : ∀ stream ∈ tables, Header.size ≤ stream.table
  inside : ∀ stream ∈ tables, stream.table + 2 + (codes stream).length ≤ dynamicEnd
  apart : tables.Pairwise fun inner outer =>
    inner.table + 2 + (codes inner).length ≤ outer.table ∨
      outer.table + 2 + (codes outer).length ≤ inner.table

instance (dynamicEnd : Int) (tables : List OpenTable) (codes : OpenTable → List Int) :
    Decidable (Fits dynamicEnd tables codes) :=
  decidable_of_iff
    ((∀ stream ∈ tables, Header.size ≤ stream.table) ∧
      (∀ stream ∈ tables, stream.table + 2 + (codes stream).length ≤ dynamicEnd) ∧
      tables.Pairwise fun inner outer =>
        inner.table + 2 + (codes inner).length ≤ outer.table ∨
          outer.table + 2 + (codes outer).length ≤ inner.table)
    ⟨fun ⟨headed, inside, apart⟩ => ⟨headed, inside, apart⟩,
      fun ⟨headed, inside, apart⟩ => ⟨headed, inside, apart⟩⟩

variable {start : OutputSelection} {kind : OutputSelection → Bool} {order : OutputOrder}
  {earlier : List OutputOrder}

private theorem received_of_silent (silent : order.printed = []) :
    start.received kind (order :: earlier) = start.received kind earlier := by
  rw [received, silent, List.append_nil, ite_self]

/-- An order opens no stream but its own. -/
theorem mem_tables_obey {selection : OutputSelection} {before : Nat} {stream : OpenTable}
    (listed : stream ∈ (selection.obey before order).tables) :
    stream ∈ selection.tables ∨ stream.since = before := by
  cases order with
  | select number table =>
      rw [obey] at listed
      split at listed
      · exact .inl listed
      split at listed
      · exact .inl listed
      split at listed
      · rcases List.mem_cons.mp listed with rfl | old
        · exact .inr rfl
        · exact .inl old
      · exact .inl listed
  | deselect number =>
      rw [obey] at listed
      split at listed
      · exact .inl listed
      split at listed
      · exact .inl listed
      split at listed
      · exact .inl (List.mem_of_mem_tail listed)
      · exact .inl listed
  | print text => exact .inl listed
  | newLine => exact .inl listed
  | writeFlags value => exact .inl listed

private theorem mem_received {orders : List OutputOrder} {text : Text}
    (listed : text ∈ start.received kind orders) : ∃ order ∈ orders, text ∈ order.printed := by
  induction orders with
  | nil => exact absurd listed List.not_mem_nil
  | cons order earlier ih =>
      have old (before : text ∈ start.received kind earlier) :
          ∃ other ∈ order :: earlier, text ∈ other.printed := by
        obtain ⟨other, given, prints⟩ := ih before
        exact ⟨other, List.mem_cons_of_mem _ given, prints⟩
      rw [received] at listed
      split at listed
      · rcases List.mem_append.mp listed with before | now
        · exact old before
        · exact ⟨order, List.mem_cons_self, now⟩
      · exact old listed

private theorem since_lt (closed : start.tables = []) (orders : List OutputOrder) {stream : OpenTable}
    (listed : stream ∈ (start.after orders).tables) : stream.since < orders.length := by
  induction orders with
  | nil =>
      rw [after, closed] at listed
      cases listed
  | cons order earlier ih =>
      rw [List.length_cons]
      rcases mem_tables_obey listed with old | opened
      · exact Nat.lt_succ_of_lt (ih old)
      · exact opened ▸ Nat.lt_succ_self _

/-- A stream has taken nothing before it was opened. -/
theorem codes_of_le (closed : start.tables = []) (codec : Codec) {orders : List OutputOrder}
    {stream : OpenTable} (later : orders.length ≤ stream.since) :
    start.codes codec orders stream = [] := by
  have nothing : start.received (fills stream) orders = [] := by
    induction orders with
    | nil => rfl
    | cons order earlier ih =>
        have idle : ¬ fills stream (start.after earlier) = true := by
          intro used
          have listed := List.mem_of_head? (of_decide_eq_true used)
          have opened := since_lt closed earlier listed
          rw [List.length_cons] at later
          omega
        unfold received
        rw [if_neg idle]
        exact ih (Nat.le_of_succ_le later)
  unfold codes
  rw [nothing]
  rfl

end OutputSelection

namespace Machine

open OutputSelection (Fits)

/-! ## One order -/

/-- The machine shows, records and writes what its start does not, and has selected the given
streams. -/
structure Reflects (start : Machine) (selection : OutputSelection) (shown recorded : List Text)
    (codes : OpenTable → List Int) (machine : Machine) : Prop where
  ready : machine.ready = true
  story : machine.story = start.story
  size : machine.work.memory.size = start.work.memory.size
  dynamicEnd : machine.work.memory.dynamicEnd = start.work.memory.dynamicEnd
  screen : machine.screen =
    { shown.foldl Screen.print start.screen with active := selection.screen }
  transcript : machine.transcript.map Sink.total =
    start.transcript.map fun sink => sink.total ++ recorded.flatten
  flag : machine.image.transcriptOn = selection.transcript
  streams : machine.memoryStreams =
    selection.tables.map fun stream => { table := stream.table, count := (codes stream).length }
  carried : ∀ stream ∈ selection.tables,
    machine.image.Carries (stream.table + 2) ((codes stream).map Byte.ofInt)

namespace Reflects

variable {start machine : Machine} {selection : OutputSelection} {shown recorded : List Text}
  {codes : OpenTable → List Int}

private theorem selectScreen (held : Reflects start selection shown recorded codes machine)
    (active : Bool) :
    Reflects start { selection with screen := active } shown recorded codes
      { machine with screen := { machine.screen with active } } where
  ready := held.ready
  story := held.story
  size := held.size
  dynamicEnd := held.dynamicEnd
  screen := by rw [held.screen]
  transcript := held.transcript
  flag := held.flag
  streams := held.streams
  carried := held.carried

/-- A change of the header that leaves the rest of memory. -/
theorem changeHeader (held : Reflects start selection shown recorded codes machine)
    (fits : Fits start.work.memory.dynamicEnd selection.tables codes) {memory : GameMemory}
    {on : Bool} (size : memory.size = machine.work.memory.size)
    (dynamicEnd : memory.dynamicEnd = machine.work.memory.dynamicEnd)
    (flag : memory.transcriptOn = on)
    (beyond : ∀ place, Header.size ≤ place → memory.peek place = machine.work.memory.peek place) :
    Reflects start { selection with transcript := on } shown recorded codes
      { machine with work.memory := memory } where
  ready := held.ready
  story := held.story
  size := size.trans held.size
  dynamicEnd := dynamicEnd.trans held.dynamicEnd
  screen := held.screen
  transcript := held.transcript
  flag := flag
  streams := held.streams
  carried := by
    intro stream listed
    have headed := fits.headed stream listed
    refine .of_peek size (fun place least _ => beyond place ?_) (held.carried stream listed)
    omega

private theorem setTranscriptOn (held : Reflects start selection shown recorded codes machine)
    (fits : Fits start.work.memory.dynamicEnd selection.tables codes)
    (headed : Header.size ≤ start.work.memory.size) (on : Bool) :
    Reflects start { selection with transcript := on } shown recorded codes
      { machine with
        work.memory := machine.work.memory.overImage (·.setTranscriptOn on) } := by
  have inside : 0x11 < machine.image.size := by
    have size : machine.image.size = start.work.memory.size := held.size
    unfold Header.size at headed
    omega
  exact held.changeHeader fits (Image.size_setTranscriptOn _ on) rfl
    (Image.peekFlag_pokeFlag_self inside (by decide) on)
    fun _ beyond => Image.peek_setTranscriptOn_of_size_le _ beyond on

/-- The story writes the byte that has the flag. -/
theorem writeFlags (held : Reflects start selection shown recorded codes machine)
    (fits : Fits start.work.memory.dynamicEnd selection.tables codes)
    (headed : Header.size ≤ start.work.memory.dynamicEnd) (whole : start.work.memory.Whole)
    (value : Int) :
    Reflects start { selection with transcript := value % 2 = 1 } shown recorded codes
      ((onMemory (GameMemory.write 0x11 value)).finalState machine) := by
  unfold GameMemory.Whole at whole
  unfold Header.size at headed
  have dynamic : ((0x11 : Nat) : Int) < machine.work.memory.dynamicEnd := by
    rw [held.dynamicEnd]
    omega
  have inside : 0x11 < machine.work.memory.size := by
    rw [held.size]
    omega
  have flag : (machine.work.memory.withByte 0x11 (Byte.ofInt value)).transcriptOn =
      decide (value % 2 = 1) := by
    unfold Image.transcriptOn Image.peekFlag
    rw [GameMemory.peek_withByte_self inside, Nat.testBit_zero, decide_eq_decide]
    unfold Byte.ofInt
    rw [UInt8.toNat_ofNat']
    omega
  have written := onMemory_of_ok (GameMemory.write_eq value dynamic inside)
  rw [show (onMemory (GameMemory.write 0x11 value)).finalState machine = _ from
    Action.finalState_of_ok written]
  refine held.changeHeader fits (GameMemory.size_withByte _ _ _) rfl flag fun place beyond => ?_
  unfold Header.size at beyond
  exact GameMemory.peek_withByte_of_ne (by omega) _

/-- Texts that were written out are still recorded, and the script is not looked at. -/
theorem changeSinks (held : Reflects start selection shown recorded codes machine)
    {transcript : Option Sink} (total : transcript.map Sink.total =
      machine.transcript.map Sink.total) (script : Option Sink) :
    Reflects start selection shown recorded codes { machine with transcript, script } where
  ready := held.ready
  story := held.story
  size := held.size
  dynamicEnd := held.dynamicEnd
  screen := held.screen
  transcript := total.trans held.transcript
  flag := held.flag
  streams := held.streams
  carried := held.carried

/-! ## Memory streams -/

private theorem openStream (held : Reflects start selection shown recorded codes machine)
    {stream : OpenTable} (fresh : codes stream = []) :
    Reflects start { selection with tables := stream :: selection.tables } shown recorded codes
      { machine with
        memoryStreams := { table := stream.table } :: machine.memoryStreams } where
  ready := held.ready
  story := held.story
  size := held.size
  dynamicEnd := held.dynamicEnd
  screen := held.screen
  transcript := held.transcript
  flag := held.flag
  streams := by
    rw [List.map_cons, ← held.streams, fresh]
    rfl
  carried := by
    refine List.forall_mem_cons.mpr ⟨?_, held.carried⟩
    rw [fresh]
    trivial

variable {stream : OpenTable} {outer : List OpenTable}

private theorem streams_of_open (held : Reflects start selection shown recorded codes machine)
    (used : selection.tables = stream :: outer) :
    machine.memoryStreams =
      { table := stream.table, count := (codes stream).length } ::
        outer.map fun other => { table := other.table, count := (codes other).length } := by
  rw [held.streams, used]
  rfl

/-- What is written to a table leaves the flag and the tables of the streams further out. -/
theorem keep_of_outside (held : Reflects start selection shown recorded codes machine)
    (used : selection.tables = stream :: outer) {taken : OpenTable → List Int}
    (fits : Fits start.work.memory.dynamicEnd selection.tables taken)
    (same : ∀ other ∈ outer, taken other = codes other) {memory : GameMemory}
    (size : memory.size = machine.work.memory.size)
    (outside : ∀ place : Nat,
      place < stream.table ∨ stream.table + 2 + (taken stream).length ≤ place →
        memory.peek place = machine.work.memory.peek place) :
    memory.transcriptOn = selection.transcript ∧
      ∀ other ∈ outer, memory.Carries (other.table + 2) ((taken other).map Byte.ofInt) := by
  obtain ⟨headed, -, apart⟩ := fits
  have carried := held.carried
  rw [used] at headed apart carried
  have first := headed stream List.mem_cons_self
  unfold Header.size at first
  refine ⟨?_, fun other listed => ?_⟩
  · rw [← held.flag]
    unfold Image.transcriptOn Image.peekFlag
    rw [outside 0x11 (by omega)]
    rfl
  · have beside := (List.pairwise_cons.mp apart).1 other listed
    have old := carried other (List.mem_cons_of_mem _ listed)
    rw [← same other listed] at old
    refine .of_peek size (fun place least most => outside place ?_) old
    rw [List.length_map] at most
    omega

/-- The count is written in front of the codes. -/
theorem closeStream (held : Reflects start selection shown recorded codes machine)
    (used : selection.tables = stream :: outer)
    (fits : Fits start.work.memory.dynamicEnd selection.tables codes)
    (whole : start.work.memory.Whole) :
    Reflects start { selection with tables := outer } shown recorded codes
        (closeMemoryStream.finalState machine) ∧
      (closeMemoryStream.finalState machine).image.word stream.table =
        .ok ((codes stream).length % 65536) ∧
      (closeMemoryStream.finalState machine).image.Carries (stream.table + 2)
        ((codes stream).map Byte.ofInt) := by
  have listed : stream ∈ selection.tables := used ▸ List.mem_cons_self
  have first := fits.headed stream listed
  have last := fits.inside stream listed
  have dynamicEnd := held.dynamicEnd
  have size := held.size
  unfold GameMemory.Whole at whole
  unfold Header.size at first
  have positive : 0 ≤ stream.table := by omega
  have closed := closeMemoryStream_eq (held.streams_of_open used) positive (by dsimp only; omega)
    (by unfold GameMemory.Whole; omega)
  have outside (place : Nat)
      (other : place < stream.table ∨ stream.table + 2 + (codes stream).length ≤ place) :
      (machine.work.memory.withWord stream.table.toNat (codes stream).length).peek place =
        machine.work.memory.peek place :=
    GameMemory.peek_withWord_of_ne (by omega) (by omega) _
  have sized := machine.work.memory.size_withWord stream.table.toNat (codes stream).length
  obtain ⟨flag, others⟩ := held.keep_of_outside used fits (fun _ _ => rfl) sized outside
  rw [Action.finalState_of_ok closed]
  refine ⟨?_, ?_, ?_⟩
  · exact {
      ready := held.ready
      story := held.story
      size := sized.trans held.size
      dynamicEnd := held.dynamicEnd
      screen := held.screen
      transcript := held.transcript
      flag := flag
      streams := rfl
      carried := others }
  · have counted := GameMemory.word_withWord
      (show stream.table.toNat + 1 < machine.work.memory.size by omega) (codes stream).length
    rw [Int.toNat_of_nonneg positive] at counted
    refine counted.trans (congrArg Except.ok ?_)
    unfold Word.ofInt
    omega
  · refine .of_peek sized (fun place least _ => ?_) (held.carried stream listed)
    have counted : place ≠ stream.table.toNat ∧ place ≠ stream.table.toNat + 1 := by omega
    exact GameMemory.peek_withWord_of_ne counted.1 counted.2 _

/-! ## Printing -/

/-- Text that is printed to a memory stream. -/
theorem printToStream (held : Reflects start selection shown recorded codes machine)
    (used : selection.tables = stream :: outer) {text : Text} (printed : text ≠ [])
    {taken : OpenTable → List Int}
    (added : taken stream = codes stream ++ text.map start.story.codec.toZscii)
    (same : ∀ other ∈ outer, taken other = codes other)
    (fits : Fits start.work.memory.dynamicEnd selection.tables taken)
    (whole : start.work.memory.Whole) :
    Reflects start selection shown recorded taken ((print text).finalState machine) := by
  have listed : stream ∈ selection.tables := used ▸ List.mem_cons_self
  have first := fits.headed stream listed
  have last := fits.inside stream listed
  have dynamicEnd := held.dynamicEnd
  have size := held.size
  unfold GameMemory.Whole at whole
  unfold Header.size at first
  have positive : 0 ≤ stream.table := by omega
  have length := congrArg List.length added
  rw [List.length_append] at length
  have written : emit text (text.map start.story.codec.toZscii) machine = _ :=
    emit_of_open (held.streams_of_open used) positive (by dsimp only; omega)
      (by unfold GameMemory.Whole; omega) text
  have outcome := @print_of_ne_nil machine text printed
  rw [held.story, written] at outcome
  rw [Action.finalState_of_ok outcome]
  have sized : (machine.work.memory.withCodes (stream.table.toNat + 2 + (codes stream).length)
      (text.map start.story.codec.toZscii)).size = machine.work.memory.size :=
    GameMemory.size_withCodes _ _
  have outside (place : Nat)
      (other : place < stream.table ∨ stream.table + 2 + (taken stream).length ≤ place) :
      (machine.work.memory.withCodes (stream.table.toNat + 2 + (codes stream).length)
        (text.map start.story.codec.toZscii)).peek place = machine.work.memory.peek place :=
    GameMemory.peek_withCodes_of_outside (by omega)
  obtain ⟨flag, others⟩ := held.keep_of_outside used fits same sized outside
  have counts : outer.map (fun other => (⟨other.table, (taken other).length⟩ : MemoryStream)) =
      outer.map fun other => ⟨other.table, (codes other).length⟩ :=
    List.map_congr_left fun other listed => by rw [same other listed]
  exact {
    ready := held.ready
    story := held.story
    size := sized.trans held.size
    dynamicEnd := (GameMemory.dynamicEnd_withCodes _ _).trans held.dynamicEnd
    screen := held.screen
    transcript := held.transcript
    flag := flag
    streams := by
      rw [used, List.map_cons, counts, length]
      rfl
    carried := by
      rw [used]
      refine List.forall_mem_cons.mpr ⟨?_, others⟩
      have old := held.carried stream listed
      have behind : stream.table + 2 + (codes stream).length =
          (stream.table.toNat + 2 + (codes stream).length : Nat) := by omega
      have inside : stream.table.toNat + 2 + (codes stream).length +
          (text.map start.story.codec.toZscii).length ≤ machine.work.memory.size := by omega
      rw [added, List.map_append, Image.carries_append]
      refine ⟨.of_peek sized (fun place least most => ?_) old, ?_⟩
      · rw [List.length_map] at most
        have front : place < stream.table.toNat + 2 + (codes stream).length := by omega
        exact GameMemory.peek_withCodes_of_outside (.inl front)
      · rw [List.length_map, behind]
        exact GameMemory.carries_withCodes inside }

/-- Text that is printed while no memory stream is open. -/
theorem printOut (held : Reflects start selection shown recorded codes machine)
    (closed : selection.tables = []) {text : Text} (printed : text ≠ [])
    (taken : OpenTable → List Int) :
    Reflects start selection (if selection.screen then shown ++ [text] else shown)
      (if selection.transcript then recorded ++ [text] else recorded) taken
      ((print text).finalState machine) := by
  have streams : machine.memoryStreams = [] := by
    rw [held.streams, closed]
    rfl
  have outcome := @print_of_ne_nil machine text printed
  rw [emit_of_closed streams] at outcome
  rw [Action.finalState_of_ok outcome]
  exact {
    ready := held.ready
    story := held.story
    size := held.size
    dynamicEnd := held.dynamicEnd
    screen := by
      dsimp only
      rw [held.screen]
      dsimp only
      cases selection.screen with
      | false => rfl
      | true =>
          rw [if_pos rfl, if_pos rfl, Screen.print_active, List.foldl_concat]
    transcript := by
      have old := held.transcript
      dsimp only
      unfold transcriptActive
      rw [held.flag, held.ready]
      cases present : machine.transcript with
      | none =>
          rw [present] at old
          have missing := Option.map_eq_none_iff.mp old.symm
          rw [missing]
          rfl
      | some sink =>
          rw [present] at old
          obtain ⟨first, found, total⟩ := Option.map_eq_some_iff.mp old.symm
          rw [found]
          cases selection.transcript with
          | false => exact congrArg some total.symm
          | true =>
              refine congrArg some ?_
              dsimp only
              rw [if_pos rfl, List.flatten_concat, ← List.append_assoc, total]
              exact sink.total_print text
    flag := held.flag
    streams := by
      rw [closed]
      exact streams
    carried := by
      rw [closed]
      exact fun stream listed => absurd listed List.not_mem_nil }

/-! ## Selecting and deselecting -/

private theorem select (held : Reflects start selection shown recorded codes machine)
    (fits : Fits start.work.memory.dynamicEnd selection.tables codes)
    (headed : Header.size ≤ start.work.memory.size) {before : Nat} {table : Int}
    (fresh : codes { table, since := before } = []) (stream : Int) :
    Reflects start (selection.obey before (.select stream table)) shown recorded codes
      ((selectOutput stream table).finalState machine) := by
  have depth : machine.memoryStreams.length = selection.tables.length := by
    rw [held.streams, List.length_map]
  rw [OutputSelection.obey]
  unfold selectOutput
  by_cases first : stream = 1
  · rw [if_pos first, if_pos first]
    exact held.selectScreen true
  rw [if_neg first, if_neg first]
  by_cases second : stream = 2
  · rw [if_pos second, if_pos second,
      Action.finalState_of_ok (setTranscriptOn_eq held.ready true)]
    exact held.setTranscriptOn fits headed true
  rw [if_neg second, if_neg second]
  by_cases third : stream = 3
  · rw [if_pos third]
    by_cases free : selection.tables.length < maxMemoryStreams
    · rw [if_pos ⟨third, free⟩,
        Action.finalState_of_ok (openMemoryStream_of_lt (depth ▸ free) table)]
      exact held.openStream fresh
    · rw [if_neg fun both => free both.2, finalState_openMemoryStream_of_le (by omega)]
      exact held
  rw [if_neg third, if_neg fun both => third both.1]
  by_cases fourth : stream = 4
  · rw [if_pos fourth]
    exact held.changeSinks rfl _
  · rw [if_neg fourth]
    exact { held with }

private theorem deselect (held : Reflects start selection shown recorded codes machine)
    (fits : Fits start.work.memory.dynamicEnd selection.tables codes)
    (headed : Header.size ≤ start.work.memory.size) (whole : start.work.memory.Whole)
    (before : Nat) (stream : Int) :
    Reflects start (selection.obey before (.deselect stream)) shown recorded codes
      ((deselectOutput stream).finalState machine) := by
  rw [OutputSelection.obey]
  unfold deselectOutput
  by_cases first : stream = 1
  · rw [if_pos first, if_pos first]
    exact held.selectScreen false
  rw [if_neg first, if_neg first]
  by_cases second : stream = 2
  · have off := held.setTranscriptOn fits headed false
    obtain ⟨sink, total, flushed⟩ := finalState_flushTranscript { machine with
      work.memory := machine.work.memory.overImage (·.setTranscriptOn false) }
    rw [if_pos second, if_pos second,
      Action.finalState_bind_of_ok (setTranscriptOn_eq held.ready false), flushed]
    exact off.changeSinks total _
  rw [if_neg second, if_neg second]
  by_cases third : stream = 3
  · rw [if_pos third, if_pos third]
    cases used : selection.tables with
    | nil =>
        have streams : machine.memoryStreams = [] := by
          rw [held.streams, used]
          rfl
        rw [finalState_closeMemoryStream_of_nil streams, List.tail_nil, ← used]
        exact held
    | cons inner outer => exact (held.closeStream used fits whole).1
  rw [if_neg third, if_neg third]
  by_cases fourth : stream = 4
  · have off := held.changeSinks (Eq.refl (machine.transcript.map Sink.total))
      (machine.script.map fun sink => { sink with active := false })
    obtain ⟨sink, flushed⟩ := finalState_flushScript { machine with
      script := machine.script.map fun sink => { sink with active := false } }
    have silenced : setScriptActive false machine = _ := rfl
    rw [if_pos fourth, Action.finalState_bind_of_ok silenced, flushed]
    exact off.changeSinks rfl _
  · rw [if_neg fourth]
    exact held

end Reflects

/-! ## All orders -/

/-- The machine after orders, whether or not each of them could be obeyed. -/
def obeying (machine : Machine) : List OutputOrder → Machine
  | [] => machine
  | order :: earlier => order.action.finalState (machine.obeying earlier)

/-- The streams that are selected while no memory stream is open. -/
def selection (machine : Machine) : OutputSelection where
  screen := machine.screen.active
  transcript := machine.image.transcriptOn

/-- The codes that a memory stream has taken by orders to a machine. -/
def codesOf (machine : Machine) (orders : List OutputOrder) (stream : OpenTable) : List Int :=
  machine.selection.codes machine.story.codec orders stream

/-- Orders for which the tables are large enough: whenever tables are open together they fit. A
table may be used again after it was closed. -/
structure Roomy (machine : Machine) (orders : List OutputOrder) : Prop where
  fits : ∀ earlier, earlier <:+ orders →
    Fits machine.work.memory.dynamicEnd (machine.selection.after earlier).tables
      (machine.codesOf earlier)
  coded : ∀ order ∈ orders, ∀ text ∈ order.printed, ∀ c ∈ text,
    machine.story.codec.toZscii c < 256

variable {start : Machine} {order : OutputOrder} {earlier : List OutputOrder}

private theorem Roomy.of_cons (roomy : start.Roomy (order :: earlier)) : start.Roomy earlier where
  fits := fun before listed => roomy.fits before (listed.trans (List.suffix_cons _ _))
  coded := fun other listed => roomy.coded other (List.mem_cons_of_mem _ listed)

/-- A machine as orders leave it. -/
def Routed (start : Machine) (orders : List OutputOrder) : Prop :=
  Reflects start (start.selection.after orders)
    (start.selection.received OutputSelection.shows orders)
    (start.selection.received OutputSelection.records orders) (start.codesOf orders)
    (start.obeying orders)

private theorem codesOf_of_silent (silent : order.printed = []) :
    start.codesOf (order :: earlier) = start.codesOf earlier := by
  funext stream
  unfold codesOf OutputSelection.codes
  rw [OutputSelection.received_of_silent silent]

/-- Orders that print nothing are only obeyed. -/
theorem Routed.of_silent (silent : order.printed = [])
    (obeyed : Reflects start ((start.selection.after earlier).obey earlier.length order)
      (start.selection.received OutputSelection.shows earlier)
      (start.selection.received OutputSelection.records earlier) (start.codesOf earlier)
      (order.action.finalState (start.obeying earlier))) : Routed start (order :: earlier) := by
  unfold Routed
  rw [OutputSelection.received_of_silent silent, OutputSelection.received_of_silent silent,
    codesOf_of_silent silent]
  exact obeyed

private theorem codesOf_print {text : Text} (visible : text ≠ []) (stream : OpenTable) :
    start.codesOf (.print text :: earlier) stream =
      if OutputSelection.fills stream (start.selection.after earlier) then
        start.codesOf earlier stream ++ text.map start.story.codec.toZscii
      else start.codesOf earlier stream := by
  unfold codesOf OutputSelection.codes
  rw [OutputSelection.received, OutputOrder.printed, if_neg visible]
  split
  · rw [List.flatten_concat, List.map_append]
  · rfl

/-- Text goes where the selection says. -/
theorem Routed.print (routed : Routed start earlier) (whole : start.work.memory.Whole)
    {text : Text} (visible : text ≠ [])
    (fits : Fits start.work.memory.dynamicEnd (start.selection.after earlier).tables
      (start.codesOf (.print text :: earlier))) : Routed start (.print text :: earlier) := by
  unfold Routed
  rw [OutputSelection.received, OutputSelection.received, OutputOrder.printed, if_neg visible]
  change Reflects start (start.selection.after earlier) _ _ _
    ((Machine.print text).finalState (start.obeying earlier))
  cases used : (start.selection.after earlier).tables with
  | nil =>
      have shows : (start.selection.after earlier).shows =
          (start.selection.after earlier).screen := by
        unfold OutputSelection.shows
        rw [used]
        rfl
      have records : (start.selection.after earlier).records =
          (start.selection.after earlier).transcript := by
        unfold OutputSelection.records
        rw [used]
        rfl
      rw [shows, records]
      exact Reflects.printOut routed used visible _
  | cons stream outer =>
      have shows : (start.selection.after earlier).shows = false := by
        unfold OutputSelection.shows
        rw [used]
        rfl
      have records : (start.selection.after earlier).records = false := by
        unfold OutputSelection.records
        rw [used]
        rfl
      have fills : OutputSelection.fills stream (start.selection.after earlier) = true := by
        unfold OutputSelection.fills
        rw [used]
        exact decide_eq_true rfl
      have apart := fits.apart
      rw [used] at apart
      have others (other : OpenTable) (listed : other ∈ outer) :
          ¬ OutputSelection.fills other (start.selection.after earlier) = true := by
        intro same
        unfold OutputSelection.fills at same
        rw [used] at same
        obtain rfl : stream = other := Option.some.inj (of_decide_eq_true same)
        have beside := (List.pairwise_cons.mp apart).1 stream listed
        omega
      rw [if_neg (by rw [shows]; decide), if_neg (by rw [records]; decide)]
      refine Reflects.printToStream routed used visible ?_ (fun other listed => ?_) fits whole
      · rw [codesOf_print visible, if_pos fills]
      · rw [codesOf_print visible, if_neg (others other listed)]

/-- Orders take the text where it belongs. -/
theorem routed_of_roomy (ready : start.ready = true) (closed : start.memoryStreams = [])
    (headed : Header.size ≤ start.work.memory.dynamicEnd) (whole : start.work.memory.Whole)
    {orders : List OutputOrder} (roomy : start.Roomy orders) : Routed start orders := by
  have sized : Header.size ≤ start.work.memory.size := by
    unfold GameMemory.Whole at whole
    omega
  induction orders with
  | nil =>
      exact {
        ready := ready
        story := rfl
        size := rfl
        dynamicEnd := rfl
        screen := rfl
        transcript := by
          refine congrArg (Option.map · start.transcript) ?_
          funext sink
          exact (List.append_nil _).symm
        flag := rfl
        streams := closed
        carried := fun stream listed => absurd listed List.not_mem_nil }
  | cons order earlier ih =>
      have routed := ih roomy.of_cons
      have before := roomy.fits earlier (List.suffix_cons _ _)
      have fits := roomy.fits _ (List.suffix_refl _)
      cases order with
      | select stream table =>
          have fresh : start.codesOf earlier { table, since := earlier.length } = [] :=
            OutputSelection.codes_of_le rfl _ (Nat.le_refl _)
          exact .of_silent rfl (Reflects.select routed before sized fresh stream)
      | deselect stream =>
          exact .of_silent rfl (Reflects.deselect routed before sized whole _ stream)
      | print text =>
          by_cases empty : text = []
          · subst empty
            exact .of_silent rfl routed
          · exact .print routed whole empty fits
      | newLine => exact Routed.print routed whole (List.cons_ne_nil 0x0a []) fits
      | writeFlags value =>
          exact .of_silent rfl (Reflects.writeFlags routed before headed whole value)

private theorem isByte_codesOf {orders : List OutputOrder} (roomy : start.Roomy orders)
    (stream : OpenTable) : ∀ code ∈ start.codesOf orders stream, IsByte code := by
  intro code taken
  obtain ⟨c, printed, rfl⟩ := List.mem_map.mp taken
  obtain ⟨text, received, inside⟩ := List.mem_flatten.mp printed
  obtain ⟨order, given, prints⟩ := OutputSelection.mem_received received
  exact ⟨Codec.toZscii_nonneg _ c, roomy.coded order given text prints c inside⟩

/-- Whatever is ordered and in whatever order, the screen shows what was printed while it was
selected and no memory stream was open; the transcript takes what was printed while its flag was
set and no memory stream was open; and a memory stream that is closed leaves in its table the
number of the characters that were printed while it was the innermost one, and their codes. -/
theorem output_routed (ready : start.ready = true) (closed : start.memoryStreams = [])
    (headed : Header.size ≤ start.work.memory.dynamicEnd) (whole : start.work.memory.Whole)
    {orders : List OutputOrder} (roomy : start.Roomy orders) :
    (start.obeying orders).screen =
        { (start.selection.received OutputSelection.shows orders).foldl Screen.print
            start.screen with active := (start.selection.after orders).screen } ∧
      (start.obeying orders).transcript.map Sink.total =
        start.transcript.map (fun sink =>
          sink.total ++ (start.selection.received OutputSelection.records orders).flatten) ∧
      ∀ stream outer, (start.selection.after orders).tables = stream :: outer →
        (start.obeying (.deselect 3 :: orders)).image.word stream.table =
          .ok ((start.codesOf orders stream).length % 65536) ∧
        (start.obeying (.deselect 3 :: orders)).image.byteRun (stream.table + 2)
            (start.codesOf orders stream).length =
          .ok ((start.codesOf orders stream).map Int.toNat) := by
  have routed := routed_of_roomy ready closed headed whole roomy
  refine ⟨routed.screen, routed.transcript, fun stream outer used => ?_⟩
  have fits := roomy.fits orders (List.suffix_refl _)
  obtain ⟨-, counted, carried⟩ := Reflects.closeStream routed used fits whole
  exact ⟨counted, byteRun_of_carries (isByte_codesOf roomy stream) carried⟩

/-- A machine with the sample story and a transcript. -/
def recording : Machine :=
  reset.finalState { sample with transcript := some {} }

/-- Text for the screen, then for both files, then for a table with another one inside it. -/
def nestedOrders : List OutputOrder :=
  [.print [0x67], .deselect 3, .newLine, .print [0x66], .select 3 72, .print [0x64, 0x65],
    .select 3 64, .print [0x62, 0x63], .writeFlags 1, .print [0x61]]

/-- The text goes to the screen, then to the transcript as well, and then to the innermost of two
streams to memory. -/
theorem output_routed_nested :
    recording.ready = true ∧ recording.memoryStreams = [] ∧
      Header.size ≤ recording.work.memory.dynamicEnd ∧ recording.work.memory.Whole ∧
      recording.Roomy nestedOrders ∧
      (recording.obeying nestedOrders).screen.shown = [.text [0x62, 0x63], .text [0x61]] ∧
      (recording.obeying nestedOrders).transcript.map Sink.total = some [0x62, 0x63] ∧
      (recording.obeying (.deselect 3 :: nestedOrders)).image.word 64 = .ok 3 ∧
      (recording.obeying (.deselect 3 :: nestedOrders)).image.byteRun 66 3 =
        .ok [0x64, 0x65, 0x67] := by
  have headed : Header.size ≤ recording.work.memory.dynamicEnd := by decide +kernel
  have whole : recording.work.memory.Whole := by
    unfold GameMemory.Whole
    decide +kernel
  have roomy : recording.Roomy nestedOrders := {
    fits := by
      intro earlier listed
      have every : ∀ earlier ∈ nestedOrders.tails,
          Fits recording.work.memory.dynamicEnd (recording.selection.after earlier).tables
            (recording.codesOf earlier) := by decide +kernel
      exact every earlier ((List.mem_tails _ _).mpr listed)
    coded := by decide +kernel }
  have ready : recording.ready = true := by decide +kernel
  have closed : recording.memoryStreams = [] := by decide +kernel
  obtain ⟨screen, transcript, tables⟩ := output_routed ready closed headed whole roomy
  have table := tables ⟨64, 3⟩ [] (by decide +kernel)
  have codes : recording.codesOf nestedOrders ⟨64, 3⟩ = [0x64, 0x65, 0x67] := by decide +kernel
  rw [codes] at table
  refine ⟨ready, closed, headed, whole, roomy, ?_, ?_, table⟩
  · rw [screen]
    decide +kernel
  · rw [transcript]
    decide +kernel

end Machine

end StoryMachine
