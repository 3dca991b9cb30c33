import BranchTrace.Log.Filter
import BranchTrace.Log.Site

/-!
# Log streams

A log stream writes one record. `Logger.openStream` decides whether the record passes; the open
stream starts with the record's heading, gathers what is written, hands it to the log at every
flush, and ends the record with a line break when it closes. A record that does not pass writes
nothing.
-/

namespace BranchTrace

/-- An open record: what is not handed over yet, and the log it goes to. -/
structure Stream where
  pending : List UInt8
  log : List UInt8
  deriving DecidableEq

namespace Stream

/-- A record that starts with a heading. -/
def start (heading : String) (log : List UInt8) : Stream :=
  { pending := heading.toUTF8.toList, log }

/-- Gathers bytes. -/
def write (stream : Stream) (bytes : List UInt8) : Stream :=
  { stream with pending := stream.pending ++ bytes }

/-- Hands over what was gathered. -/
def flush (stream : Stream) : Stream :=
  { pending := [], log := stream.log ++ stream.pending }

/-- Ends the record; the result is the log. -/
def close (stream : Stream) : List UInt8 :=
  ((stream.write [10]).flush).log

/-- One thing done with an open stream. -/
inductive Step where
  | write (bytes : List UInt8)
  | flush
  deriving DecidableEq

/-- Does one thing with an open stream. -/
def step (stream : Stream) : Step → Stream
  | .write bytes => stream.write bytes
  | .flush => stream.flush

end Stream

/-- What one record asks of the log. -/
structure Attempt where
  level : Level
  site : Site
  /-- Whether the record passes whatever its threshold. -/
  always : Bool
  /-- The last error number of the thread. -/
  errno : Int32

namespace Logger

/-- Opens a stream for a record if it passes. -/
def openStream (logger : Logger) (attempt : Attempt) (log : List UInt8) :
    Option Stream × Logger :=
  let (topic, logger) := logger.topic attempt.site.file
  if attempt.always || attempt.level.passes topic.threshold then
    (some (.start (attempt.site.heading topic.name attempt.level attempt.errno) log), logger)
  else (none, logger)

/-- Writes a record step by step: whether it passed, and the log after it. -/
def record (logger : Logger) (attempt : Attempt) (steps : List Stream.Step) (log : List UInt8) :
    Bool × List UInt8 × Logger :=
  match logger.openStream attempt log with
  | (some stream, logger) => (true, (steps.foldl Stream.step stream).close, logger)
  | (none, logger) => (false, log, logger)

end Logger

end BranchTrace
