/-!
# Sound

A sound device records what it was told to do. It may hand out a token for a
sound that it plays, by which the machine learns later that the sound is over.
-/

namespace StoryMachine

/-- An order to a sound device. -/
inductive SoundCall where
  | bleep (number : Int)
  | prepare (number : Int)
  | play (number repeats volume : Int)
  | stop (number : Int)
  | unload (number : Int)
deriving DecidableEq, Repr

/-- A sound device. Orders are listed from the newest on. -/
structure SoundDevice where
  available : Bool := false
  /-- Whether a played sound has a token. -/
  tokens : Bool := true
  /-- Whether the device ever tells that a sound is over. -/
  finished : Bool := true
  /-- The tokens of the sounds that are still to be heard. -/
  playing : List Int := []
  calls : List SoundCall := []
deriving DecidableEq, Repr, Inhabited

namespace SoundDevice

/-- Records an order. -/
def order (device : SoundDevice) (call : SoundCall) : SoundDevice :=
  { device with calls := call :: device.calls }

/-- Plays a sound and gives its token, which is the number of the sound. -/
def play (device : SoundDevice) (number repeats volume : Int) : Option Int × SoundDevice :=
  (if device.tokens then some number else none, device.order (.play number repeats volume))

/-- Whether the sound of a token is over. -/
def isFinished (device : SoundDevice) (token : Int) : Bool :=
  device.finished && !device.playing.contains token

end SoundDevice

end StoryMachine
