import StoryMachine.Instruction.Decode
import StoryMachine.Machine.Routine

/-!
# Saving, restoring and undoing

A snapshot holds dynamic memory, the frames and the address where the saving
instruction keeps its result; a restored game goes on there as if the save had
just succeeded, with the result two. A file that cannot be restored leaves the
machine untouched.
-/

namespace StoryMachine

namespace Machine

/-- The most undo snapshots that are kept. -/
def maxUndo : Nat := 10

/-- The dynamic memory of the fresh story. -/
def freshDynamic (machine : Machine) : List UInt8 :=
  machine.story.freshDynamic machine.work.memory

/-- A snapshot that resumes at an address. -/
def snapshot (machine : Machine) (pc : Int) : SavedGame :=
  let image := machine.image
  { release := image.releaseNumber
    serial := image.serial
    checksum := image.checksum
    pc
    dynamic := machine.work.memory.dynamicBytes.toList
    frames := machine.work.calls.frames }

/-- Puts a snapshot in place of the game. The preserved header bits stay, and the fields that the
machine owns are written anew. -/
def applySnapshot (game : SavedGame) : Play Unit := do
  let flags := (← get).image.flags2
  onMemory (GameMemory.replaceDynamic game.dynamic.toArray)
  overHeader (·.keepFlags flags)
  match CallStack.ofFrames? game.frames with
  | none => pure ()
  | some calls => modify fun machine => { machine with work.calls := calls }
  announce

/-- Goes on at the result of a save that has just been restored. -/
def resumeAfterSave (pc : Int) : Play Unit := do
  if (← get).image.version < 4 then
    let (branch, next) ← ask (Instruction.readBranch · pc)
    if branch.ifTrue then takeBranch branch.offset next else goTo next
  else
    let target ← ask (·.byte pc)
    onWork (Workspace.setVariable target 2)
    goTo (pc + 1)

/-- Hands a saved game to the storage. -/
def store (data : List UInt8) : Play Bool := do
  match (← get).storage with
  | .slot .accepting _ =>
      modify fun machine => { machine with storage := .slot .accepting (some data) }
      return true
  | .slot .broken _ => Action.refuse (.system .noDisk)
  | .slot _ _ => return false
  | .directory directory =>
      let name ← prompt (Text.ofString s!"Name of file for save (in {directory})? ")
      match Storage.pathFor? directory (name.getD []) with
      | none => return false
      | some path =>
          let disk ← (← get).disk.write path data
          modify fun machine => { machine with disk }
          note .info "generic_terp" s!"Saved to {path}"
          return true

/-- Asks the storage for a saved game. -/
def retrieve : Play (Option (List UInt8)) := do
  match (← get).storage with
  | .slot .broken _ => Action.refuse (.system .noDisk)
  | .slot .absent _ => return none
  | .slot _ data => return data
  | .directory directory =>
      let name ← prompt (Text.ofString s!"Name of file for restore (in {directory})? ")
      let path := Storage.pathFor? directory (name.getD [])
      let disk := (← get).disk
      match path.filter fun path => (disk.find? path).isSome with
      | none =>
          let shown := path.getD "None"
          note .info "generic_terp" s!"No save at {shown}"
          return none
      | some path => return some (← disk.read path)

/-- Runs an action; a fault or a refusal of the file system is logged and answers with a default
instead. -/
def orLogged {α : Type} (what : String) (default : α) (action : Play α) : Play α :=
  fun machine =>
    match action machine with
    | .ok a machine => .ok a machine
    | .error (.fault fault) machine =>
        (do note .error "zmachine.interpreter" s!"{what} failed: {fault.message}"; return default)
          machine
    | .error (.breach (.system error)) machine =>
        (do note .error "zmachine.interpreter" s!"{what} failed: {error.message}"; return default)
          machine
    | .error failure machine => .error failure machine

/-- Saves the game for an instruction. A failed save is an answer, not a fault. -/
def save (instruction : Instruction) : Play Bool := do
  let result ← orLogged "Save" none do
    let machine ← get
    let data ←
      SaveFile.encode (machine.snapshot instruction.resultAddress) machine.freshDynamic
    return some (← store data)
  match result with
  | some true =>
      note .info "zmachine.interpreter" "Game saved"
      return true
  | _ => return false

/-- A byte of memory as a snapshot would have it. -/
def byteAfter (machine : Machine) (game : SavedGame) (address : Int) : Result Nat :=
  match game.dynamic[address.toNat]? with
  | some byte => .ok byte.toNat
  | none => machine.image.byte address

/-- Checks that a snapshot can be resumed from, before anything is put in its place. -/
def checkResumePoint (machine : Machine) (game : SavedGame) : Result Unit := do
  match game.frames.getLast? with
  | none => .fault .noCallFrames
  | some current =>
      if game.pc < 0 ∨ (machine.image.size : Int) ≤ game.pc + 1 then
        .fault (.resumeOutside game.pc)
      let first ← machine.byteAfter game game.pc
      if machine.image.version < 4 then
        let offset ←
          if first / 64 % 2 = 1 then pure (first % 64)
          else do
            let second ← machine.byteAfter game (game.pc + 1)
            pure (first % 64 * 256 + second)
        if 0x80 ≤ first ∧ (offset = 0 ∨ offset = 1) ∧ game.frames.length < 2 then
          .fault .resumeReturnsFromMain
      else
        if 0 < first ∧ first < 0x10 ∧ current.locals.length < first then
          .fault (.resumeNoSuchLocal first current.locals.length)

/-- Reads a saved game and checks it against the running story. -/
def loadSave (data : List UInt8) : Play SavedGame := do
  let machine ← get
  let outcome := SaveFile.decodeNoting data machine.freshDynamic []
  let (game?, skipped) : Result SavedGame × List String :=
    match outcome with
    | .ok game skipped => (.ok game, skipped)
    | .error e skipped => (.error e, skipped)
  skipped.forM fun id => note .debug "zmachine.quetzal" s!"Skipping {id} chunk in save"
  let game ← game?
  let image := machine.image
  if game.release ≠ image.releaseNumber ∨ game.serial ≠ image.serial ∨
      game.checksum ≠ image.checksum then
    Action.fault (.foreignSave game.release.toNat game.serial)
  if (game.dynamic.length : Int) ≠ machine.work.memory.dynamicEnd then
    Action.fault (.savedMemorySize game.dynamic.length machine.work.memory.dynamicEnd)
  machine.checkResumePoint game
  return game

/-- Restores a saved game. The answer is false, and the game goes on, if there is none to
restore. -/
def restore : Play Bool := do
  let game ← orLogged "Restore" none do
    match ← retrieve with
    | none => return none
    | some data => return some (← loadSave data)
  match game with
  | none => return false
  | some game =>
      applySnapshot game
      resumeAfterSave game.pc
      note .info "zmachine.interpreter" "Game restored"
      return true

/-- Keeps a snapshot for an instruction; the oldest is dropped when there are too many. -/
def saveUndo (instruction : Instruction) : Play Unit :=
  modify fun machine =>
    { machine with
      undo := (machine.snapshot instruction.resultAddress :: machine.undo).take maxUndo }

/-- Goes back to the newest snapshot, if there is one. -/
def restoreUndo : Play Bool := do
  match (← get).undo with
  | [] => return false
  | game :: undo =>
      modify fun machine => { machine with undo }
      applySnapshot game
      resumeAfterSave game.pc
      return true

end Machine

end StoryMachine
