import StoryMachine.Storage
import StoryMachine.Text.Integer

/-!
# Command lines

A command line has one operand and any number of flags in any order. A flag may
be cut short as long as no other flag starts the same way, and its value is the
next word or stands after an equals sign. After `--` every word is an operand.
Words that look like negative numbers are values, not flags.
-/

namespace StoryMachine

/-- A flag with its dashes. -/
structure Flag where
  name : String
  takesValue : Bool := true
deriving DecidableEq, Repr

/-- How one word of a command line is read. -/
inductive Argument where
  | word (text : String)
  | separator
  | flag (flag : Flag) (value : Option String)
  | help
  | unknown
  | ambiguous
deriving DecidableEq, Repr

/-- A command line that was read: the operand, and the flags with their values, the last first. -/
structure CommandLine where
  operand : String
  values : List (String × String)
deriving DecidableEq, Repr

namespace CommandLine

/-- The flag that asks for help. -/
def helpFlag : Flag := ⟨"--help", false⟩

/-- Whether a word looks like a negative number; a line end may follow it. -/
def isNegativeNumber (word : String) : Bool :=
  let isDigit (c : Char) : Bool := (CodePoint.digitValue? c.toNat).isSome
  let chars := word.toList
  match if chars.getLast? = some '\n' then chars.dropLast else chars with
  | '-' :: rest =>
      match rest.span (· != '.') with
      | (whole, []) => !whole.isEmpty && whole.all isDigit
      | (whole, _ :: fraction) =>
          whole.all isDigit && !fraction.isEmpty && fraction.all isDigit
  | _ => false

/-- The name and the value of a word with an equals sign. -/
def splitValue (word : String) : String × Option String :=
  match word.toList.span (· != '=') with
  | (name, _ :: value) => (String.ofList name, some (String.ofList value))
  | (name, []) => (String.ofList name, none)

/-- How the short flag for help is read, given what follows it. Other letters may follow, but
neither a dash nor a value. -/
def shortHelp (tail : List Char) : Argument :=
  match tail.dropWhile (· == 'h') with
  | '-' :: _ | '=' :: _ => .flag helpFlag (some (String.ofList tail))
  | _ => .help

/-- How a word in front of a separator is read. -/
def role (flags : List Flag) (word : String) : Argument :=
  let asFlag (flag : Flag) (value : Option String) : Argument :=
    if flag = helpFlag ∧ value = none then .help else .flag flag value
  let (name, value) := splitValue word
  if !word.startsWith "-" || word == "-" then .word word
  else if word == "--" then .separator
  else if word.startsWith "-h" then shortHelp (word.toList.drop 2)
  else
    match flags.find? (·.name == word), flags.find? (·.name == name) with
    | some flag, _ => asFlag flag none
    | none, some flag => asFlag flag value
    | none, none =>
        let starting := if word.startsWith "--" then flags.filter (·.name.startsWith name) else []
        match starting with
        | [flag] => asFlag flag value
        | _ :: _ => .ambiguous
        | [] =>
            if isNegativeNumber word || word.contains ' ' then .word word else .unknown

/-- How the words are read; after the separator all are operands. -/
def roles (flags : List Flag) : List String → List Argument
  | [] => []
  | word :: words =>
      match role flags word with
      | .separator => .separator :: words.map .word
      | role => role :: roles flags words

/-- The status of a refused command line. -/
def refused : Nat := 2

/-- What has been read of a command line. -/
structure Progress where
  operand : Option String := none
  values : List (String × String) := []
  /-- Whether the operand has just been read, so that a separator may follow it. -/
  atOperand : Bool := false
  /-- Whether there were words that belong nowhere. -/
  surplus : Bool := false

/-- Reads the words from left to right; the error is the status to exit with. -/
def readRoles (progress : Progress) : List Argument → Except Nat CommandLine
  | [] =>
      match progress.operand with
      | some operand =>
          if progress.surplus then .error refused else .ok ⟨operand, progress.values⟩
      | none => .error refused
  | .word text :: rest =>
      match progress.operand with
      | none => readRoles { progress with operand := some text, atOperand := true } rest
      | some _ => readRoles { progress with surplus := true, atOperand := false } rest
  | .separator :: rest =>
      let allowed := progress.atOperand || (progress.operand.isNone && !rest.isEmpty)
      readRoles
        { progress with surplus := progress.surplus || !allowed, atOperand := false } rest
  | .flag flag value :: rest =>
      let progress := { progress with atOperand := false }
      let record (value : String) : Progress :=
        { progress with values := (flag.name, value) :: progress.values }
      match flag.takesValue, value, rest with
      | true, some value, rest => readRoles (record value) rest
      | true, none, .word value :: rest => readRoles (record value) rest
      | false, none, rest => readRoles (record "") rest
      | _, _, _ => .error refused
  | .help :: _ => .error 0
  | .unknown :: rest => readRoles { progress with surplus := true, atOperand := false } rest
  | .ambiguous :: _ => .error refused

/-- Reads a command line with the given flags. -/
def read (flags : List Flag) (words : List String) : Except Nat CommandLine :=
  let roles := roles (helpFlag :: flags) words
  if roles.contains .ambiguous then .error refused else readRoles {} roles

/-- The value of a flag, if it was given. -/
def value? (line : CommandLine) (name : String) : Option String :=
  line.values.lookup name

/-- Whether a flag was given. -/
def has (line : CommandLine) (name : String) : Bool :=
  (line.value? name).isSome

end CommandLine

/-- How a command ended. -/
inductive Ending where
  /-- With a status, if it has one. -/
  | finished (status : Option Nat)
  /-- The command line was refused. -/
  | refused (status : Nat)
  /-- Nothing could be done about a failure. -/
  | broken (failure : Failure)
  /-- The steps that were granted were used up. -/
  | unfinished
deriving DecidableEq, Repr

/-- What a command did: its printed text, its messages, and the files as it left them. -/
structure Report where
  ending : Ending
  out : Text := []
  messages : String := ""
  disk : Disk := {}
deriving DecidableEq, Repr

end StoryMachine
