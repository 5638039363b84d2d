import StoryMachine.Proofs.EndedReads
import StoryMachine.Proofs.ParseTables

/-!
# Lines that are finished

The text of an answer is stored in the text buffer of its read, and the parse table
describes what has been stored, as long as the buffers lie in dynamic memory and
apart from each other and from the dictionary. After that only the result of the
read is stored.
-/

namespace StoryMachine

open StoryMachine.Action (Ensures Keeps EndsIn)
open StoryMachine.Assembly (IsByte)
open GameMemory (ChangedWithin)

/-- If a story has at most 101 extra characters, a byte holds the code of every character. -/
theorem Codec.isByte_toZscii {codec : Codec} (few : codec.extras.length ≤ 101) (c : CodePoint) :
    IsByte (codec.toZscii c) := by
  refine ⟨codec.toZscii_nonneg c, ?_⟩
  unfold toZscii Zscii.ofCodePoint
  cases found : Zscii.ofCodePoint? codec.extras c with
  | none => decide
  | some code =>
      rw [Option.getD_some]
      unfold Zscii.ofCodePoint? at found
      split at found
      · cases found
        decide
      split at found
      · rename_i printable
        cases found
        exact Int.ofNat_lt.mpr (lt_of_le_of_lt printable.2 (by decide))
      · cases place : codec.extras.findIdx? (· == c) with
        | none =>
            rw [place] at found
            cases found
        | some index =>
            rw [place] at found
            cases found
            have inside := (List.findIdx?_eq_some_iff_getElem.mp place).1
            change 155 + (index : Int) < 256
            omega

namespace GameMemory

variable {memory : GameMemory}

private theorem lineOffset_eq (memory : GameMemory) : memory.lineOffset = 1 ∨ memory.lineOffset = 2 := by
  unfold lineOffset
  split <;> simp

private theorem carries_codes {image : Image} {buffer : Int} {codes : List Int}
    (carried : image.Carries (buffer + 1) ((memory.lineLayout codes).map Byte.ofInt)) :
    image.Carries (buffer + memory.lineOffset) (codes.map Byte.ofInt) := by
  unfold lineLayout at carried
  unfold lineOffset
  split at carried
  · rw [List.map_append, Image.carries_append] at carried
    rw [if_pos ‹_›]
    exact carried.1
  · rw [if_neg ‹_›]
    rw [List.map_cons] at carried
    have codes := carried.2
    rwa [Int.add_assoc] at codes

end GameMemory

namespace Machine

variable {reach : Int → Prop} {kind : MoveKind} {machine after : Machine} {story : Story}
  {fresh : GameMemory}

/-! ## Requests -/

/-- A machine asks for no line that is longer than a byte can say. -/
abbrev Core.Short : Core → Prop :=
  Core.EveryRequest (·.maxLength ≤ 255)

private theorem closed_short (loaded : Story.load story.data = .ok (story, fresh)) :
    Closed (fun _ => True) (fun machine => Attentive story machine ∧ machine.core.Short) where
  move := fun allowed holds move =>
    ⟨(closed_attentive loaded).move allowed holds.1 move,
      holds.2.move (fun _ _ _ short => short) (fun _ _ _ short => short) move⟩
  near := fun _ _ => trivial
  ledger := fun holds found => holds.1.ledger.found found

/-- A machine that a run comes to attends its story, and asks for short lines. -/
theorem attentive_of_run {unstarted started : Machine} (unused : unstarted.requests = #[])
    (accepted : reset unstarted = .ok () started) (events : List Event)
    (reached : started.after events = machine) :
    ∃ story memory, Story.load story.data = .ok (story, memory) ∧ Attentive story machine ∧
      machine.core.Short := by
  obtain ⟨story, memory, loaded, attentive⟩ := attentive_of_reset unused accepted
  have holds := (closed_short loaded).after ⟨attentive, .of_reset accepted unused⟩ events
  rw [reached] at holds
  exact ⟨story, memory, loaded, holds⟩

end Machine

namespace InputRequest

/-- The buffers of a request for a line lie in dynamic memory, the parse table with room for a
number of words, apart from each other and from the keys of a dictionary. -/
structure Placed (request : InputRequest) (dictionary : Dictionary) (memory : GameMemory)
    (room : Nat) : Prop where
  text : 0 ≤ request.textBuffer ∧
    request.textBuffer + 1 + max request.maxLength 0 < memory.dynamicEnd
  table : request.parseBuffer + 1 + 4 * room < memory.dynamicEnd
  apart : request.textBuffer + 1 + max request.maxLength 0 < request.parseBuffer ∨
    request.parseBuffer + 1 + 4 * room ≤ request.textBuffer
  keys : ∀ place, dictionary.InKeys place →
    ¬ request.InTextBuffer place ∧ ¬ InParseTable request.parseBuffer room place

/-- In a later memory, the text buffer of a request holds codes, laid out as the earlier memory has
it, and the parse table describes them. -/
structure Told (request : InputRequest) (dictionary : Dictionary) (memory : GameMemory)
    (room : Nat) (codes : List Int) (later : GameMemory) : Prop where
  line : later.Carries (request.textBuffer + 1) ((memory.lineLayout codes).map Byte.ofInt)
  table : dictionary.Describes later request.textBuffer request.parseBuffer memory.lineOffset room
    codes

private theorem InResult.eq_of_storeTo {request : InputRequest} {globals address target : Int}
    (inside : request.InResult globals address)
    (stores : request.instruction.bind Instruction.storeTo = some target) :
    address = globals + (target - firstGlobal) * 2 ∨
      address = globals + (target - firstGlobal) * 2 + 1 := by
  obtain ⟨instruction, asked, other, stored, -, -, place⟩ := inside
  rw [asked, Option.bind_some, stored] at stores
  cases stores
  exact place

/-- Addresses lie outside the buffers of a request and the keys of a dictionary. -/
def Spares (request : InputRequest) (dictionary : Dictionary) (room : Nat)
    (addresses : Int → Prop) : Prop :=
  ∀ place, addresses place → ¬ request.InTextBuffer place ∧
    (place < request.parseBuffer ∨ request.parseBuffer + 1 + 4 * room < place) ∧
    ¬ dictionary.InKeys place

variable {request : InputRequest} {dictionary : Dictionary} {memory : GameMemory} {room : Nat}
  {codes : List Int}

private theorem changedWithin_line (memory : GameMemory) {buffer : Nat}
    (placed : request.textBuffer = buffer) (fits : (codes.length : Int) ≤ max request.maxLength 0) :
    memory.ChangedWithin request.InTextBuffer
      (memory.withCodes (buffer + 1) (memory.lineLayout codes)) := by
  have layout := memory.length_lineLayout codes
  unfold InTextBuffer
  exact (ChangedWithin.refl _ _).withCodes fun place least most => ⟨by omega, by omega⟩

/-- A line is written into the text buffer, and then the table of its words. -/
theorem Placed.told (placed : request.Placed dictionary memory room)
    (compact : dictionary.codec.Compact) (behind : ∀ index : Nat, 0 < dictionary.entryAddress index)
    (whole : memory.Whole) (held : memory.byte request.parseBuffer = .ok room)
    (short : codes.length ≤ 255) (fits : (codes.length : Int) ≤ max request.maxLength 0) :
    ∃ (filled told : GameMemory) (tokens : List Dictionary.Token),
      (Store.writeRun (request.textBuffer + 1) (memory.lineLayout codes) : GameMemory.Edit Unit)
        memory = .ok () filled ∧
      (dictionary.tokenise codes request.parseBuffer memory.lineOffset :
        GameMemory.Edit (List Dictionary.Token)) filled = .ok tokens told ∧
      request.Told dictionary memory room codes told ∧
      memory.ChangedWithin
        (fun place => request.InTextBuffer place ∨ InParseTable request.parseBuffer room place)
        told := by
  obtain ⟨⟨positive, textEnd⟩, tableEnd, apart, keys⟩ := placed
  -- No key lies in a buffer, so that the words are looked up the same while the table is written.
  obtain ⟨find, looks⟩ := Dictionary.exists_find compact behind
    (fun place key => not_or.mpr (keys place key)) memory
  obtain ⟨buffer, buffer_eq⟩ := Int.eq_ofNat_of_zero_le positive
  obtain ⟨table, table_eq⟩ := Int.eq_ofNat_of_zero_le (Image.byte_eq_ok held).1.1
  have layout := memory.length_lineLayout codes
  have room_most := List.length_take_le room (dictionary.split codes)
  have offset := memory.lineOffset_eq
  have lined : memory.ChangedWithin
      (fun place => request.InTextBuffer place ∨ InParseTable table room place) _ :=
    (changedWithin_line memory buffer_eq fits).mono fun _ => .inl
  rw [buffer_eq] at textEnd apart ⊢
  rw [table_eq] at looks held tableEnd apart ⊢
  let filled := memory.withCodes (buffer + 1) (memory.lineLayout codes)
  unfold GameMemory.Whole at whole
  have size : filled.size = memory.size := lined.size
  have dynamic : filled.dynamicEnd = memory.dynamicEnd := lined.dynamicEnd
  have stands : filled.Carries ((buffer : Int) + 1) ((memory.lineLayout codes).map Byte.ofInt) :=
    GameMemory.carries_withCodes (by omega)
  have capacity : filled.byte table = .ok room := by
    refine (lined.byte_eq ?_).trans held
    unfold InTextBuffer InParseTable
    omega
  have outside (place : Int) (least : (buffer : Int) + 1 ≤ place)
      (most : place < buffer + 2 + codes.length) : ¬ InParseTable table room place := by
    unfold InParseTable
    omega
  have tabled := Dictionary.changedWithin_table filled find memory.lineOffset table room_most
  refine ⟨filled, _, _,
    GameMemory.writeRun_eq (show ((buffer + 1 : Nat) : Int) + _ ≤ _ by omega) whole,
    Dictionary.tokenise_eq looks (fun place => .inr) lined ?_ capacity (by omega), ⟨?_, ?_⟩,
    lined.trans (tabled.mono fun _ => .inr)⟩
  · unfold GameMemory.Whole
    omega
  · rw [buffer_eq]
    refine tabled.carries stands fun place least most => outside place least ?_
    rw [List.length_map] at most
    omega
  · rw [buffer_eq, table_eq]
    exact Dictionary.describes_withCodes compact behind
      (fun after changed => looks after (lined.trans (changed.mono fun _ => .inr))) short
      capacity (GameMemory.carries_codes stands)
      (fun place least most => outside place (by omega) (by omega)) (by omega)

/-- The buffers still say the same after a change of neither of them and of no key. -/
theorem Told.of_changed {later other : GameMemory} {allowed : Int → Prop}
    (told : request.Told dictionary memory room codes later)
    (behind : ∀ index : Nat, 0 < dictionary.entryAddress index)
    (fits : (codes.length : Int) ≤ max request.maxLength 0)
    (changed : later.ChangedWithin allowed other)
    (apart : request.Spares dictionary room allowed) :
    request.Told dictionary memory room codes other := by
  have inText (place : Int) (least : request.textBuffer + 1 ≤ place)
      (most : place < request.textBuffer + 2 + codes.length) : ¬ allowed place :=
    fun inside => (apart place inside).1 ⟨least, by omega⟩
  have offset := memory.lineOffset_eq
  refine ⟨changed.carries told.line fun place least most => ?_,
    told.table.of_changed behind changed (fun place key inside => (apart place inside).2.2 key)
      (fun place least most => ?_) fun place least most inside => ?_⟩
  · rw [List.length_map, GameMemory.length_lineLayout] at most
    exact inText place least (by omega)
  · exact inText place (by omega) (by omega)
  · have outside := (apart place inside).2.1
    omega

end InputRequest

namespace Machine

variable {machine : Machine} {request : InputRequest} {room : Nat} {codes : List Int}
  {story : Story} {fresh : GameMemory}

/-! ## Finishing a line -/

/-- A line can always be recorded. -/
theorem commandEntered_eq_ok (text : Text) (machine : Machine) :
    ∃ after, commandEntered text machine = .ok () after ∧ Aside machine after := by
  have kept := keeps_commandEntered (survivesAside_aside machine) text
  cases outcome : commandEntered text machine with
  | ok u after => exact ⟨after, rfl, (kept.of_ok (.refl machine) outcome).1⟩
  | error failure after =>
      exact (failsWith_commandEntered (R := fun _ => False) text machine after failure outcome).elim

/-- The buffers of a finished line are filled. What is left is to go on after the read and to store
its result. -/
theorem finishLine_eq (loaded : Story.load story.data = .ok (story, fresh))
    (attentive : Attentive story machine) (short : request.maxLength ≤ 255)
    (present : request.parseBuffer ≠ 0) (held : machine.image.byte request.parseBuffer = .ok room)
    (placed : request.Placed story.dictionary machine.work.memory room) (text : Text)
    (terminator : Int) :
    ∃ (told : GameMemory) (recorded : Machine),
      request.Told story.dictionary machine.work.memory room (request.lineCodes story.codec text)
        told ∧
      machine.work.memory.ChangedWithin
        (fun place => request.InTextBuffer place ∨ InParseTable request.parseBuffer room place)
        told ∧
      recorded.work = { machine.work with memory := told } ∧
      finishLine request (.text text) terminator machine =
        (do finishRequest request; storeAnswer request terminator : Play Unit) recorded := by
  obtain ⟨compact, same⟩ := Story.codec_of_load loaded
  rw [← same] at compact
  obtain ⟨header, address, read⟩ := Story.dictionary_of_load loaded
  have whole : machine.work.memory.Whole := attentive.protects.memory.dynamicEnd_le_size
  have few := request.length_lineCodes_le story.codec text
  obtain ⟨filled, told, tokens, lined, tabled, tells, changed⟩ :=
    placed.told compact (Dictionary.entryAddress_pos read) whole held (by omega) few
  refine ⟨told, ?_⟩
  -- A line that another key ends is not recorded, which changes nothing of what follows.
  have follows (after : Machine) (apart : Aside { machine with work.memory := filled } after) :
      ∃ recorded : Machine, recorded.work = { machine.work with memory := told } ∧
        (do
          let _ ← onMemory (story.dictionary.tokenise (request.lineCodes story.codec text)
            request.parseBuffer machine.work.memory.lineOffset)
          finishRequest request
          storeAnswer request terminator : Play Unit) after =
          (do finishRequest request; storeAnswer request terminator : Play Unit) recorded := by
    have work : after.work = { machine.work with memory := filled } :=
      congrArg Core.work apart.core
    have memory : after.work.memory = filled := congrArg Workspace.memory work
    rw [← memory] at tabled
    refine ⟨{ after with work.memory := told }, ?_, Action.bind_of_ok (onMemory_of_ok tabled)⟩
    dsimp only
    rw [work]
  have run : fillTextBuffer request.textBuffer (request.lineCodes story.codec text) machine =
      .ok machine.work.memory.lineOffset { machine with work.memory := filled } :=
    (fillTextBuffer_eq _ _ machine).trans (Action.bind_of_ok (onMemory_of_ok lined))
  have finished : ∃ recorded : Machine, recorded.work = { machine.work with memory := told } ∧
      finishLine request (.text text) terminator machine =
        (do finishRequest request; storeAnswer request terminator : Play Unit) recorded := by
    unfold InputRequest.lineCodes at run follows
    unfold finishLine
    dsimp only at follows ⊢
    rw [Action.get_bind, show machine.story = story from attentive.attends.story]
    rw [Action.bind_of_ok run]
    simp only [present, ne_eq, not_false_eq_true, ↓reduceIte]
    split
    · obtain ⟨after, recorded, apart⟩ :=
        commandEntered_eq_ok text { machine with work.memory := filled }
      rw [Action.bind_of_ok recorded]
      exact follows after apart
    · exact follows _ (.refl _)
  obtain ⟨recorded, work, finished⟩ := finished
  exact ⟨recorded, tells, changed, work, finished⟩

/-- What is left of a read stores its result and nothing else. -/
theorem confined_finish (request : InputRequest) (terminator : Int) (recorded : Machine) :
    EndsIn (Confined (request.InResult recorded.work.globals) recorded) (fun _ => True)
      (do finishRequest request; storeAnswer request terminator) recorded := by
  have stores : Keeps (Confined (request.InResult recorded.work.globals) recorded)
      (do finishRequest request; storeAnswer request terminator) :=
    .seq (Confined.modify fun _ => rfl) fun _ =>
      confines_storeAnswer terminator fun _ inside => inside
  exact stores recorded ⟨.refl _ _, rfl⟩

/-- An answer to the pending request for a line is the end of its read. -/
theorem endsIn_completeLine {I : Machine → Prop} {token : Nat} {entry : Entry} {terminator : Int}
    (same : OfMemory I)
    (abandons : ∀ machine, I machine → I { machine with pending := none, phase := .running })
    (asked : machine.request? token = some request) (line : request.kind = .line)
    (pending : machine.pending = some request.token)
    (finishes : EndsIn I (fun _ => True) (finishLine request entry terminator) machine) :
    EndsIn I (fun _ => True) (completeInput (some token) entry terminator) machine := by
  refine endsIn_completeInput same abandons asked (fun other => absurd pending other) ?_
  unfold answerRequest
  rw [if_neg Bool.false_ne_true, line]
  exact finishes

/-- Once a read is over, its buffers and nothing else have been told the codes of its line, and
after that only the result has been stored, which leaves the buffers alone if it is stored
elsewhere. Every word stands where its byte says, unless it is the last letter of the longest
line. -/
structure TellsLine (request : InputRequest) (room : Nat) (codes : List Int)
    (before after : Machine) : Prop where
  ended : after.pending = none
  told : ∃ told, request.Told before.story.dictionary before.work.memory room codes told ∧
    before.work.memory.ChangedWithin
      (fun place => request.InTextBuffer place ∨ InParseTable request.parseBuffer room place) told ∧
    told.ChangedWithin (request.InResult before.work.globals) after.work.memory
  stays : request.Spares before.story.dictionary room (request.InResult before.work.globals) →
    request.Told before.story.dictionary before.work.memory room codes after.work.memory
  words : Dictionary.Splits before.story.dictionary.separators codes 0 codes.length
    (before.story.dictionary.split codes)
  places : ∀ start word, (start, word) ∈ before.story.dictionary.split codes →
    start + before.work.memory.lineOffset < 256 ∨
      5 ≤ before.image.version ∧ codes.length = 255 ∧ start = 254 ∧ word.length = 1
  bytes : before.story.codec.extras.length ≤ 101 → ∀ code ∈ codes, IsByte code

namespace TellsLine

variable {before after : Machine}

/-- What is not told and does not take the result is as before. -/
theorem byte_eq (tells : TellsLine request room codes before after) (address : Int)
    (text : ¬ request.InTextBuffer address)
    (table : ¬ InParseTable request.parseBuffer room address)
    (result : ¬ request.InResult before.work.globals address) :
    after.image.byte address = before.image.byte address := by
  obtain ⟨told, -, within, stored⟩ := tells.told
  exact (stored.byte_eq result).trans (within.byte_eq (not_or.mpr ⟨text, table⟩))

/-- From version five on, a word at the end of the longest line is said to stand at zero. -/
theorem place_eq_zero (tells : TellsLine request room codes before after)
    (late : 5 ≤ before.image.version) {index : Nat} {word : List Int} (inside : index < room)
    (last : (before.story.dictionary.split codes)[index]? = some (254, word))
    (apart : request.Spares before.story.dictionary room
      (request.InResult before.work.globals)) :
    after.image.byte (request.parseBuffer + 2 + 4 * index + 3) = .ok 0 := by
  have entry := ((tells.stays apart).table.entry index 254 word inside last).place
  have offset : before.work.memory.lineOffset = 2 := if_neg (Nat.not_lt.mpr late)
  rwa [offset] at entry

end TellsLine

private theorem tellsLine_completeInput (loaded : Story.load story.data = .ok (story, fresh))
    (attentive : Attentive story machine) (brief : machine.core.Short) {token : Nat}
    (pending : machine.pending = some token) (asked : machine.request? token = some request)
    (line : request.kind = .line) (present : request.parseBuffer ≠ 0)
    (held : machine.image.byte request.parseBuffer = .ok room)
    (placed : request.Placed machine.story.dictionary machine.work.memory room) (text : Text)
    (terminator : Int) :
    TellsLine request room (request.lineCodes machine.story.codec text) machine
      ((completeInput (some token) (.text text) terminator).finalState machine) := by
  have short := brief.found asked
  have few := request.length_lineCodes_le machine.story.codec text
  have named : machine.pending = some request.token := by
    obtain ⟨index, rfl, -⟩ := exists_index_of_request? asked
    rw [pending, attentive.attends.numbered index request asked]
  have story_eq : machine.story = story := attentive.attends.story
  rw [story_eq] at placed few ⊢
  obtain ⟨header, address, read⟩ := Story.dictionary_of_load loaded
  obtain ⟨told, recorded, tells, within, work, finished⟩ :=
    finishLine_eq loaded attentive short present held placed text terminator
  have stored : EndsIn (Confined (request.InResult recorded.work.globals) recorded)
      (fun _ => True) (completeInput (some token) (.text text) terminator) machine :=
    endsIn_completeLine (ofMemory_confined _ _) (fun _ confined => ⟨confined.1, confined.2⟩) asked
      line named (.of_eq finished (confined_finish request terminator recorded))
  have changed := stored.finalState.memory
  rw [work] at changed
  have ended : EndsIn (fun after => after.pending = none) (fun _ => True)
      (completeInput (some token) (.text text) terminator) machine := by
    refine endsIn_completeLine (fun _ _ none _ _ same => same.trans none) (fun _ _ => rfl) asked
      line named (.of_eq finished (.modify ?_))
    exact keeps_pending_storeAnswer request terminator _ rfl
  refine ⟨ended.finalState, ⟨told, ?_, within, changed⟩, fun apart => ?_, ?_, ?_, ?_⟩
  · rw [story_eq]
    exact tells
  · rw [story_eq] at apart ⊢
    exact tells.of_changed (Dictionary.entryAddress_pos read) few changed apart
  · exact Dictionary.splits_split _ _
  · intro start word member
    obtain ⟨ends, -, some⟩ := Dictionary.word_inside member
    have version : machine.work.memory.lineOffset = if machine.image.version < 5 then 1 else 2 :=
      rfl
    split at version
    · omega
    · omega
  · intro extras code member
    rw [story_eq] at extras
    obtain ⟨c, -, rfl⟩ := List.mem_map.mp (List.mem_of_mem_take member)
    exact Codec.isByte_toZscii extras c

/-- In every run, an answer to a request for a line tells its buffers what the line says, as long as
they lie in dynamic memory, apart from each other and from the dictionary. -/
theorem parse_table_told {unstarted started : Machine} (unused : unstarted.requests = #[])
    (accepted : reset unstarted = .ok () started) (events : List Event)
    (reached : started.after events = machine) {token : Nat}
    (pending : machine.pending = some token) (asked : machine.request? token = some request)
    (line : request.kind = .line) (present : request.parseBuffer ≠ 0)
    (held : machine.image.byte request.parseBuffer = .ok room)
    (placed : request.Placed machine.story.dictionary machine.work.memory room) (text : Text)
    (terminator : Int) :
    TellsLine request room (request.lineCodes machine.story.codec text) machine
      ((completeInput (some token) (.text text) terminator).finalState machine) := by
  obtain ⟨story, memory, loaded, attends, brief⟩ := attentive_of_run unused accepted events reached
  exact tellsLine_completeInput loaded attends brief pending asked line present held placed text
    terminator

/-- The four characters that fit are told, and one word. -/
theorem parse_table_told_typing :
    TellsLine typingRequest 1 [97, 98, 32, 99] typing
        ((completeInput (some 1) (.text typedLine)).finalState typing) ∧
      typingRequest.Told typing.story.dictionary typing.work.memory 1 [97, 98, 32, 99]
        ((completeInput (some 1) (.text typedLine)).finalState typing).work.memory := by
  have accepted : reset { sample with file.data := typingStory } =
      .ok () (reset.finalState { sample with file.data := typingStory }) :=
    Action.eq_ok_finalState (by decide +kernel)
  have pending : typing.pending = some 1 := by decide +kernel
  have asked : typing.request? 1 = some typingRequest := by decide +kernel
  have held : typing.image.byte 72 = .ok 1 := by decide +kernel
  have dynamic : typing.work.memory.dynamicEnd = 80 := by decide +kernel
  have empty : typing.story.dictionary.count = 0 := by decide +kernel
  have globals : typing.work.globals = 64 := by decide +kernel
  have codes : typingRequest.lineCodes typing.story.codec typedLine = [97, 98, 32, 99] := by
    decide +kernel
  have keyless := Dictionary.not_inKeys_of_empty empty
  have placed : typingRequest.Placed typing.story.dictionary typing.work.memory 1 := by
    refine ⟨?_, ?_, .inl (by decide), fun place key => (keyless place key).elim⟩
    · rw [dynamic]
      decide
    · rw [dynamic]
      decide
  have tells :=
    parse_table_told rfl accepted [.step] (show _ = typing from rfl) pending asked rfl (by decide)
      held placed typedLine 13
  rw [codes] at tells
  refine ⟨tells, tells.stays ?_⟩
  intro place inside
  have address := inside.eq_of_storeTo rfl
  rw [globals] at address
  unfold firstGlobal at address
  unfold InputRequest.InTextBuffer
  refine ⟨?_, ?_, keyless place⟩
  · simp only [typingRequest]
    omega
  · simp only [typingRequest]
    omega

/-- A story of version five that reads a line of up to 255 characters into a text buffer at 88, and
up to two words into a parse buffer in front of it. -/
def wideStory : Array UInt8 :=
  ([5, 0, 0, 1, 1, 90, 0, 66, 0, 74, 0, 64, 0, 64, 1, 90, 0, 0, 50, 54, 48, 49, 48, 49] ++
    List.replicate 42 0 ++ [0xe4, 0x5f, 88, 78, 0x10, 0xba, 0, 0] ++ [0, 9, 0, 0] ++
    [2, 0, 0, 0, 0, 0, 0, 0, 0, 0] ++ [255] ++ List.replicate 257 0 : List UInt8).toArray

/-- The sample machine with that story, started and waiting for the line. -/
def wide : Machine :=
  (reset.finalState { sample with file.data := wideStory }).after [.step]

/-- The request for the line. -/
def wideRequest : InputRequest where
  kind := .line
  token := 1
  instruction := some
    { typingRead with
      address := 66
      operands := [⟨.small, 88⟩, ⟨.small, 78⟩]
      resultAddress := 70
      nextAddress := 71 }
  textBuffer := 88
  parseBuffer := 78
  maxLength := 255

/-- A line of 255 characters, of which the first and the last are letters. -/
def wideLine : Text :=
  122 :: (List.replicate 253 0x20 ++ [122])

/-- The second word of that line begins 256 bytes behind the start of the text buffer. Its entry
says zero, and that is not where it stands. -/
theorem not_forall_stands_at_place :
    ¬ ∀ (unstarted started machine : Machine) (events : List Event) (token : Nat)
        (request : InputRequest) (room : Nat) (text : Text) (index start : Nat) (word : List Int),
      unstarted.requests = #[] → reset unstarted = .ok () started →
      started.after events = machine → machine.pending = some token →
      machine.request? token = some request → request.kind = .line → request.parseBuffer ≠ 0 →
      machine.image.byte request.parseBuffer = .ok room →
      request.Placed machine.story.dictionary machine.work.memory room →
      request.Spares machine.story.dictionary room (request.InResult machine.work.globals) →
      index < room →
      (machine.story.dictionary.split
        (request.lineCodes machine.story.codec text))[index]? = some (start, word) →
      ∃ place : Nat,
        ((completeInput (some token) (.text text)).finalState machine).image.byte
            (request.parseBuffer + 2 + 4 * index + 3) = .ok place ∧
          ((completeInput (some token) (.text text)).finalState machine).image.Carries
            (request.textBuffer + place) (word.map Byte.ofInt) := by
  intro stands
  have accepted : reset { sample with file.data := wideStory } =
      .ok () (reset.finalState { sample with file.data := wideStory }) :=
    Action.eq_ok_finalState (by decide +kernel)
  have asked : wide.request? 1 = some wideRequest := by decide +kernel
  have codes : wideRequest.lineCodes wide.story.codec wideLine =
      122 :: (List.replicate 253 0x20 ++ [122]) := by decide +kernel
  have second : (wide.story.dictionary.split (122 :: (List.replicate 253 0x20 ++ [122])))[1]? =
      some (254, [122]) := by decide +kernel
  obtain ⟨pending, held, capacity, dynamic, empty, globals, version⟩ :
      wide.pending = some 1 ∧ wide.image.byte 78 = .ok 2 ∧ wide.image.byte 88 = .ok 255 ∧
        wide.work.memory.dynamicEnd = 346 ∧ wide.story.dictionary.count = 0 ∧
        wide.work.globals = 64 ∧ wide.image.version = 5 := by decide +kernel
  have keyless := Dictionary.not_inKeys_of_empty empty
  have placed : wideRequest.Placed wide.story.dictionary wide.work.memory 2 := by
    refine ⟨?_, ?_, .inr (by decide), fun place key => (keyless place key).elim⟩
    · rw [dynamic]
      decide
    · rw [dynamic]
      decide
  obtain ⟨story, memory, loaded, attentive, brief⟩ :=
    attentive_of_run rfl accepted [.step] (show _ = wide from rfl)
  have tells := tellsLine_completeInput loaded attentive brief pending asked rfl (by decide) held
    placed wideLine 13
  have inResult (place : Int) (inside : wideRequest.InResult wide.work.globals place) :
      place = 64 ∨ place = 65 := by
    have address := inside.eq_of_storeTo rfl
    rw [globals] at address
    unfold firstGlobal at address
    omega
  have apart : wideRequest.Spares wide.story.dictionary 2
      (wideRequest.InResult wide.work.globals) := by
    intro place inside
    have outside := inResult place inside
    refine ⟨?_, .inl ?_, keyless place⟩
    · unfold InputRequest.InTextBuffer
      simp only [wideRequest]
      omega
    · simp only [wideRequest]
      omega
  rw [codes] at tells
  have zero := tells.place_eq_zero (by omega) (by decide) second apart
  have unchanged := tells.byte_eq (wideRequest.textBuffer + (0 : Nat))
    (fun inside => absurd inside.1 (by decide)) (fun inside => absurd inside.2 (by decide))
    (fun inside => absurd (inResult _ inside) (by decide))
  obtain ⟨place, read, letter, -⟩ := stands _ _ wide [.step] 1 wideRequest 2 wideLine 1 254 [122]
    rfl accepted rfl pending asked rfl (by decide) held placed apart (by decide) (codes ▸ second)
  obtain rfl : 0 = place := Except.ok.inj (zero.symm.trans read)
  rw [letter] at unchanged
  exact absurd (Except.ok.inj (unchanged.trans capacity)) (by decide)

end Machine

end StoryMachine
