/-!
# The log

Messages for whoever watches the machine, with a level and the part of the
machine that they come from. Messages below the threshold are not kept.
-/

namespace StoryMachine

/-- How serious a message is. -/
inductive LogLevel where
  | debug
  | info
  | warning
  | error
deriving DecidableEq, Repr

namespace LogLevel

/-- The rank of a level. -/
def rank : LogLevel → Nat
  | debug => 10
  | info => 20
  | warning => 30
  | error => 40

/-- The written name of a level. -/
def label : LogLevel → String
  | debug => "DEBUG"
  | info => "INFO"
  | warning => "WARNING"
  | error => "ERROR"

/-- The level with the given written name. -/
def ofLabel? (name : String) : Option LogLevel :=
  [debug, info, warning, error].find? (·.label == name)

end LogLevel

/-- A message in the log. -/
structure LogEntry where
  level : LogLevel
  source : String
  message : String
deriving DecidableEq, Repr

namespace LogEntry

/-- A message as a line of a log file. -/
def line (entry : LogEntry) : String :=
  s!"{entry.level.label}:{entry.source}:{entry.message}\n"

end LogEntry

/-- The messages kept so far, the newest first. -/
structure Log where
  /-- The rank from which on messages are kept; none keeps nothing. -/
  threshold : Option Nat := none
  entries : List LogEntry := []
deriving DecidableEq, Repr, Inhabited

namespace Log

/-- The thresholds by name; some levels have two names. -/
def thresholds : List (String × Nat) :=
  [("NOTSET", 0), ("DEBUG", 10), ("INFO", 20), ("WARNING", 30), ("WARN", 30), ("ERROR", 40),
    ("CRITICAL", 50), ("FATAL", 50)]

/-- A letter as a capital, if that is a letter of ASCII; a ligature has two. -/
def capital (c : Char) : List Char :=
  match c with
  | 'ı' => ['I']
  | 'ſ' => ['S']
  | 'ﬅ' | 'ﬆ' => ['S', 'T']
  | c => [c.toUpper]

/-- A name in capitals. -/
def capitals (name : String) : String :=
  String.ofList (name.toList.flatMap capital)

/-- Whether messages of a level are kept. -/
def keeps (log : Log) (level : LogLevel) : Bool :=
  log.threshold.any (· ≤ level.rank)

/-- Adds a message. -/
def add (log : Log) (level : LogLevel) (source message : String) : Log :=
  if log.keeps level then { log with entries := { level, source, message } :: log.entries }
  else log

/-- The messages as the lines of a file, the oldest first. -/
def text (log : Log) : String :=
  String.join (log.entries.reverse.map LogEntry.line)

end Log

end StoryMachine
