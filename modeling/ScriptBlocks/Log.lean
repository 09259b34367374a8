/-!
# Log records

A record is one line of a log: its level, the logger that it comes from and its message.  A log
that is set to a level shows the records of that level and of the graver ones.
-/

namespace ScriptBlocks

/-- How grave a log record is. -/
inductive Level where
  | debug
  | info
  | warning
  | error
  | critical
  deriving DecidableEq, Repr

namespace Level

/-- The levels, the least grave first. -/
def all : List Level := [debug, info, warning, error, critical]

def name : Level → String
  | debug => "DEBUG"
  | info => "INFO"
  | warning => "WARNING"
  | error => "ERROR"
  | critical => "CRITICAL"

def rank : Level → Nat
  | debug => 0
  | info => 1
  | warning => 2
  | error => 3
  | critical => 4

/-- The capital of a letter, as far as the names of levels have it: the ASCII letters and the
dotless ı, whose capital is `I`. -/
def capital (c : Char) : Char :=
  if 'a' ≤ c ∧ c ≤ 'z' then Char.ofNat (c.toNat - 32) else if c = 'ı' then 'I' else c

/-- The level of a name, in capital or small letters. -/
def ofName? (name : List Char) : Option Level :=
  all.find? fun level => level.name.toList == name.map capital

end Level

/-- One line of a log. -/
structure LogRecord where
  level : Level
  logger : String
  message : String
  deriving DecidableEq, Repr

namespace LogRecord

/-- Whether a log that is set to `level` shows the record. -/
def shownAt (level : Level) (r : LogRecord) : Bool := level.rank ≤ r.level.rank

/-- The record as a line of a log. -/
def line (r : LogRecord) : String := s!"{r.level.name} {r.logger}: {r.message}"

end LogRecord

/-! ### The loggers -/

def commandLogger : String := "mpxscan"

def scanLogger : String := "mpxscan.loader"

def serviceLogger : String := "uvicorn.error"

end ScriptBlocks
