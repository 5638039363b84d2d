import StoryMachine.Machine.Routine

/-!
# Starting and restarting

A start loads the story afresh and forgets everything. A restart loads it afresh
too, but keeps the transcript and fixed pitch bits of the header, the undo
snapshots and the random numbers.
-/

namespace StoryMachine

namespace Machine

/-- Loads the story into fresh memory. -/
def loadStory : Play Unit := do
  let (story, memory) ← Story.load (← get).file.data
  modify fun machine => { machine with ready := true, story, work := { machine.work with memory } }

/-- Puts the machine at the first instruction of a loaded story. -/
def begin : Play Unit := do
  announce
  resetOutput
  modify fun machine =>
    { machine with
      input := machine.input.select 0
      work :=
        { machine.work with calls := {}, globals := machine.image.globalsAddress }
      pc := machine.image.mainRoutine
      phase := .running
      pending := none
      lastInstruction := none
      fault := none }

/-- Starts the story. -/
def reset : Play Unit := do
  loadStory
  let image := (← get).image
  note .info "zmachine.interpreter"
    s!"Loaded version {image.version} story, release {image.releaseNumber}"
  modify fun machine =>
    { machine with
      undo := []
      soundRoutines := []
      classifier := machine.classifier.reset
      random := machine.random.enterRandom
      screen := machine.screen.reset }
  begin

/-- Starts the story again. -/
def restart : Play Unit := do
  note .info "zmachine.interpreter" "Restarting"
  let flags := (← get).image.flags2
  loadStory
  overHeader (·.keepFlags flags)
  onScreen Screen.reset
  begin

/-- Whether the story file is as its header says. -/
def verify : Play Bool := do
  let machine ← get
  let sum ← machine.story.computedChecksum machine.image
  return sum = machine.image.checksum

end Machine

end StoryMachine
