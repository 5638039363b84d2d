import StoryMachine.Effect

/-!
# Transcripts and scripts

A stream of text to a file. Text is collected and written out when the stream is
flushed; the file system can refuse.
-/

namespace StoryMachine

/-- A stream of text to a file. Texts are listed from the newest on. -/
structure Sink where
  active : Bool := false
  pending : List Text := []
  written : List Text := []
  refusal : Option Breach := none
deriving DecidableEq, Repr, Inhabited

namespace Sink

/-- Adds text. -/
def print (sink : Sink) (text : Text) : Sink :=
  { sink with pending := text :: sink.pending }

/-- Writes out what was collected. -/
def flush (sink : Sink) : Result Sink :=
  if sink.pending.flatten.isEmpty then .ok sink
  else
    match sink.refusal with
    | some breach => .refuse breach
    | none => .ok { sink with pending := [], written := sink.pending ++ sink.written }

/-- The text that was written out. -/
def contents (sink : Sink) : Text :=
  sink.written.reverse.flatten

/-- All text, written out or not. -/
def total (sink : Sink) : Text :=
  (sink.pending ++ sink.written).reverse.flatten

end Sink

end StoryMachine
