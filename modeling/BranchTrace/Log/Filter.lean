import BranchTrace.Log.Level
import BranchTrace.Text.Blank
import BranchTrace.Text.FileStem
import Std.Data.TreeMap

/-!
# Log filters

A filter gives each topic a threshold. It is written as `topic:level` items between commas: the
topic `all` sets the threshold of every topic without one of its own, the last item for a topic
wins, and an item without a colon says nothing.

A `Logger` remembers the topic and threshold of every file it was asked about, since a file name
has to be taken apart to find its topic. What it answers is what the filter alone says.
-/

namespace BranchTrace

/-- The thresholds of the topics. -/
structure Filter where
  /-- The threshold of a topic without one of its own. -/
  fallback : Level
  /-- The topics with a threshold of their own. -/
  topics : Std.TreeMap String Level

namespace Filter

/-- The filter that gives every topic one threshold. -/
def uniform (level : Level) : Filter :=
  { fallback := level, topics := {} }

/-- The filter that holds where none is configured. -/
def unset : Filter :=
  uniform .error

/-- The threshold of a topic. -/
def threshold (filter : Filter) (topic : String) : Level :=
  filter.topics.getD topic filter.fallback

/-- Splits an item at its first colon. -/
def splitItem (item : List Char) : Option (List Char × List Char) :=
  match item.span (· ≠ ':') with
  | (_, []) => none
  | (topic, _ :: level) => some (topic, level)

/-- Adds what one item says. -/
def addItem (filter : Filter) (item : List Char) : Filter :=
  match splitItem item with
  | none => filter
  | some (topic, word) =>
    let topic := Text.trim topic
    let level := Level.ofWord (Text.trim word)
    if topic = "all".toList then { filter with fallback := level }
    else { filter with topics := filter.topics.insert (String.ofList topic) level }

/-- Reads a filter. -/
def ofChars (cs : List Char) : Filter :=
  (Text.splitAll ',' cs).foldl addItem (uniform .debug)

/-- Reads a filter. -/
def parse (text : String) : Filter :=
  ofChars text.toList

end Filter

/-- The topic of a file and the threshold found for it. -/
structure Topic where
  name : String
  threshold : Level
  deriving DecidableEq, Repr

/-- A filter with the topics of the files seen so far. -/
structure Logger where
  filter : Filter
  seen : Std.TreeMap String Topic := {}

namespace Logger

/-- The topic of a file, looked up once. -/
def topic (logger : Logger) (file : String) : Topic × Logger :=
  match logger.seen[file]? with
  | some topic => (topic, logger)
  | none =>
    let name := Text.fileStem file
    let topic := { name, threshold := logger.filter.threshold name }
    (topic, { logger with seen := logger.seen.insert file topic })

/-- Whether records of a level pass for a file. -/
def isLogging (logger : Logger) (level : Level) (file : String) : Bool × Logger :=
  let (topic, logger) := logger.topic file
  (level.passes topic.threshold, logger)

/-- One threshold for every file from here on. -/
def setAll (_ : Logger) (level : Level) : Logger :=
  { filter := .uniform level }

end Logger

end BranchTrace
