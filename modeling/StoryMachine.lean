import StoryMachine.ObjectTable.Summary
import StoryMachine.Instruction.Assemble
import StoryMachine.Machine.Run
import StoryMachine.Settings
import StoryMachine.CommandLine
import StoryMachine.Console
import StoryMachine.Inspector
import StoryMachine.Main
import StoryMachine.Proofs.Edits
import StoryMachine.Proofs.Variables
import StoryMachine.Proofs.Moves
import StoryMachine.Proofs.Actions
import StoryMachine.Proofs.Decoding
import StoryMachine.Proofs.Saving
import StoryMachine.Proofs.Operations
import StoryMachine.Proofs.Runs
import StoryMachine.Proofs.Protection
import StoryMachine.Proofs.ChunkForms
import StoryMachine.Proofs.Differences
import StoryMachine.Proofs.SavedFrames
import StoryMachine.Proofs.SavedGames
import StoryMachine.Proofs.WrittenGames
import StoryMachine.Proofs.Savable
import StoryMachine.Proofs.Assignments
import StoryMachine.Proofs.Failures
import StoryMachine.Proofs.Restoring
import StoryMachine.Proofs.Matching
import StoryMachine.Proofs.Resuming
import StoryMachine.Proofs.Forests
import StoryMachine.Proofs.ObjectTrees
import StoryMachine.Proofs.CallFrames
import StoryMachine.Proofs.Returns
import StoryMachine.Proofs.Recovery
import StoryMachine.Proofs.Alphabets
import StoryMachine.Proofs.Breaches
import StoryMachine.Proofs.Steadiness
import StoryMachine.Proofs.Mishaps
import StoryMachine.Proofs.PackedText
import StoryMachine.Proofs.Assembling
import StoryMachine.Proofs.RestorableSaves
import StoryMachine.Proofs.PendingReads
import StoryMachine.Proofs.EndedReads
import StoryMachine.Proofs.Answers
import StoryMachine.Proofs.Halting
import StoryMachine.Proofs.Backgrounds
import StoryMachine.Proofs.Restarts
import StoryMachine.Proofs.HeldSnapshots
import StoryMachine.Proofs.FormGeometry
import StoryMachine.Proofs.WaitingPlaces
import StoryMachine.Proofs.TwoPhaseReads
import StoryMachine.Proofs.OutputStreams
import StoryMachine.Proofs.OutputRouting
import StoryMachine.Proofs.VersionByte
import StoryMachine.Proofs.FixedVersions
import StoryMachine.Proofs.Compactness
import StoryMachine.Proofs.TreeFaults
import StoryMachine.Proofs.ResourceIndex
import StoryMachine.Proofs.ResourceFiles
import StoryMachine.Proofs.Attributes
import StoryMachine.Proofs.PropertyLists
import StoryMachine.Proofs.PropertyWrites
import StoryMachine.Proofs.DictionarySearch
import StoryMachine.Proofs.WordSplitting
import StoryMachine.Proofs.CustomAlphabets
import StoryMachine.Proofs.LineBuffers
import StoryMachine.Proofs.ParseTables
import StoryMachine.Proofs.FinishedLines
import StoryMachine.Proofs.ShortestText
import StoryMachine.Proofs.WordOperands
import StoryMachine.Proofs.Arithmetic
import StoryMachine.Proofs.TableCopies
import StoryMachine.Proofs.FaultKinds
import StoryMachine.Proofs.StoringFaults
import StoryMachine.Proofs.PredictableNumbers
import StoryMachine.Proofs.PackedWords
import StoryMachine.Proofs.DecodedBytes
import StoryMachine.Proofs.VariableLaws
