/-!
# Log levels

The five severities of a log record, from `fatal` down to `debug`. A record passes a threshold
when it is at least as severe.
-/

namespace BranchTrace

/-- The severity of a log record. -/
inductive Level where
  | fatal
  | error
  | warn
  | info
  | debug
  deriving DecidableEq, Repr, Inhabited

namespace Level

/-- The place of a level, the most severe first. -/
def rank : Level → Nat
  | fatal => 0
  | error => 1
  | warn => 2
  | info => 3
  | debug => 4

/-- Whether a record of this level passes a threshold. -/
def passes (level threshold : Level) : Bool :=
  level.rank ≤ threshold.rank

/-- The word in front of a record. -/
def label : Level → String
  | fatal => "FATAL"
  | error => "ERROR"
  | warn => "WARN"
  | info => "INFO"
  | debug => "DEBUG"

/-- The level a configuration word stands for; an unknown word is `warn`. -/
def ofWord (word : List Char) : Level :=
  if word = "fatal".toList then fatal
  else if word = "error".toList then error
  else if word = "warn".toList then warn
  else if word = "info".toList then info
  else if word = "debug".toList then debug
  else warn

end Level

end BranchTrace
