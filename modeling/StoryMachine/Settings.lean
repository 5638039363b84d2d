import StoryMachine.Policy
import StoryMachine.Settings.Document
import StoryMachine.Storage
import StoryMachine.Text.Lines

/-!
# Settings

The colours that a story is told of, whether a log is kept, and the policy for
recoverable faults. Settings that are not given keep their defaults, and so does
a policy of an unknown name, with a warning.
-/

namespace StoryMachine

/-- The settings of a machine. -/
structure Settings where
  foreground : Int := 9
  background : Int := 2
  logging : Bool := false
  policy : Policy := .continueWarnOnce
deriving DecidableEq, Repr, Inhabited

namespace Settings

/-- The colours, the foreground first. -/
def colours (settings : Settings) : Int × Int :=
  (settings.foreground, settings.background)

/-- The policy of a name; an unknown name keeps the default, with a warning that shows it. -/
def policyOf (value : Setting) : Result (Policy × Option String) :=
  let known :=
    match value with
    | .text name => Policy.ofLabel? name.toString
    | _ => none
  match known with
  | some policy => .ok (policy, none)
  | none =>
      let policy : Policy := default
      let warning := "Unknown error_handling \"" ++ value.shown ++ "\", using " ++ policy.label
      if value.isTooLong then .refuse .valueOutOfRange else .ok (policy, some warning)

/-- The settings in the fields of a mapping, with the warning about them. -/
def ofFields (field? : String → Option Setting) : Result (Settings × Option String) := do
  let defaults : Settings := {}
  let colour (name : String) (default : Int) : Result Int :=
    ((field? name).map Setting.colour).getD (.ok default)
  let foreground ← colour "foreground" defaults.foreground
  let background ← colour "background" defaults.background
  let logging := (field? "logging").any (·.isText "enabled")
  let (policy, warning) ←
    match field? "error_handling" with
    | none | some .nothing => .ok (defaults.policy, none)
    | some value => policyOf value
  return ({ foreground, background, logging, policy }, warning)

/-- The settings that a value gives, with the warning about them. -/
def ofSetting : Setting → Result (Settings × Option String)
  | .nothing => .ok ({}, none)
  | .mapping fields => ofFields (Setting.field? fields)
  | value => .fault (.settingsNotMapping value.kindName)

/-- The settings of a document. Only the fields that count are looked at. -/
def ofDocument (document : Document) : Result (Settings × Option String) :=
  match document.value 1 with
  | .mapping _ => ofFields document.field?
  | value => ofSetting value

/-- The settings in the text of a document. A text that is none is charged to its file. -/
def ofText (path : String) (text : Text) : Result (Settings × Option String) :=
  match Document.ofText text.withLineFeeds with
  | .ok document => ofDocument document
  | .error (.fault fault) => .fault (.settingsUnparsable path fault.cause.message)
  | .error failure => .error failure

/-- The settings in a file. A file that is not there gives the defaults. -/
def load (disk : Disk) (path : String) : Result (Settings × Option String) :=
  match disk.find? path with
  | none => .ok ({}, none)
  | some .directory =>
      .fault (.settingsUnreadable path (SystemError.isDirectory path).message)
  | some (.file data) =>
      match Text.ofUtf8? data with
      | some text => ofText path text
      | none => .refuse .undecodable

end Settings

end StoryMachine
