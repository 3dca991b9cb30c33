import BranchTrace.Log.Stream

/-!
# What a logger remembers

A logger remembers the topic and the threshold of every file it was asked about, and forgets all of
them when its filter changes. So what it remembers of a file is always what its filter says of it
now (`Logger.Faithful`), and whatever it was asked before it answers like a filter that looks up the
stem of the file anew each time.

Main statement: `Logger.answers_as_configured`.
-/

namespace BranchTrace

namespace Logger

/-- A call on a logger. -/
inductive Call where
  /-- Asks for a stream to write a record to a log. -/
  | openStream (attempt : Attempt) (log : List UInt8)
  | isLogging (level : Level) (file : String)
  | setAll (level : Level)

/-- The answer to a call. -/
inductive Answer where
  /-- The stream, if the record passes. -/
  | opened (stream? : Option Stream)
  | logging (passes : Bool)
  | done
  deriving DecidableEq

/-- The level that a call sets for every file. -/
def Call.level? : Call → Option Level
  | .setAll level => some level
  | _ => none

/-- The answer to a call, and the logger after it. -/
def perform (logger : Logger) : Call → Answer × Logger
  | .openStream attempt log =>
    let (stream?, logger) := logger.openStream attempt log
    (.opened stream?, logger)
  | .isLogging level file =>
    let (passes, logger) := logger.isLogging level file
    (.logging passes, logger)
  | .setAll level => (.done, logger.setAll level)

/-- The logger after some calls. -/
def after (logger : Logger) (calls : List Call) : Logger :=
  calls.foldl (fun logger call => (logger.perform call).2) logger

end Logger

/-! ## Without a memory -/

namespace Filter

/-- The level that is configured for a file: the one for its stem, if the stem has one of its own,
or else the one for everything. -/
def levelOf (filter : Filter) (file : String) : Level :=
  match filter.topics[Text.fileStem file]? with
  | some own => own
  | none => filter.fallback

/-- The topic of a file and its threshold, looked up by the stem of the file. -/
def topicOf (filter : Filter) (file : String) : Topic :=
  { name := Text.fileStem file, threshold := filter.levelOf file }

/-- Whether a record of a file is severe enough. -/
def admits (filter : Filter) (level : Level) (file : String) : Bool :=
  level.rank ≤ (filter.levelOf file).rank

/-- The filter that holds after some calls: the level set last holds for every file. -/
def configured (filter : Filter) (calls : List Logger.Call) : Filter :=
  ((calls.filterMap Logger.Call.level?).getLast?.map uniform).getD filter

/-- The answer that a filter gives to a call. -/
def answer (filter : Filter) : Logger.Call → Logger.Answer
  | .openStream attempt log =>
    let topic := Text.fileStem attempt.site.file
    .opened <|
      if attempt.always || filter.admits attempt.level attempt.site.file then
        some (.start (attempt.site.heading topic attempt.level attempt.errno) log)
      else none
  | .isLogging level file => .logging (filter.admits level file)
  | .setAll _ => .done

theorem levelOf_eq_getD (filter : Filter) (file : String) :
    filter.levelOf file = filter.topics[Text.fileStem file]?.getD filter.fallback := by
  rw [levelOf]
  cases filter.topics[Text.fileStem file]? <;> rfl

theorem threshold_fileStem (filter : Filter) (file : String) :
    filter.threshold (Text.fileStem file) = filter.levelOf file := by
  rw [threshold, Std.TreeMap.getD_eq_getD_getElem?, levelOf_eq_getD]

theorem levelOf_uniform (level : Level) (file : String) :
    (uniform level).levelOf file = level := by
  rw [levelOf_eq_getD, uniform, Std.TreeMap.getElem?_emptyc, Option.getD_none]

/-- The filter changes with each call as with all of them. -/
theorem configured_cons (filter : Filter) (call : Logger.Call) (calls : List Logger.Call) :
    filter.configured (call :: calls) = (filter.configured [call]).configured calls := by
  unfold configured
  rcases hc : call.level? with _ | level
  · rw [List.filterMap_cons_none hc, List.filterMap_cons_none hc]
    rfl
  · rw [List.filterMap_cons_some hc, List.filterMap_cons_some hc, List.getLast?_cons,
      List.filterMap_nil]
    cases (calls.filterMap Logger.Call.level?).getLast? <;> rfl

theorem configured_of_quiet (filter : Filter) {calls : List Logger.Call}
    (h : ∀ call ∈ calls, call.level? = none) : filter.configured calls = filter := by
  rw [configured, List.filterMap_eq_nil_iff.mpr h]
  rfl

end Filter

/-! ## With a memory -/

namespace Logger

/-- Whatever is remembered of a file is what the filter says of it. -/
def Faithful (logger : Logger) : Prop :=
  ∀ file topic, logger.seen[file]? = some topic → topic = logger.filter.topicOf file

theorem faithful_of_forgetful (filter : Filter) : Faithful { filter } := by
  intro file topic h
  rw [Std.TreeMap.getElem?_emptyc] at h
  cases h

variable {logger : Logger}

/-- A file is looked up as in the filter, and what is remembered of it then is true as well. -/
theorem Faithful.topic (h : logger.Faithful) (file : String) :
    (logger.topic file).1 = logger.filter.topicOf file ∧
      (logger.topic file).2.filter = logger.filter ∧ (logger.topic file).2.Faithful := by
  unfold Logger.topic
  rcases hseen : logger.seen[file]? with _ | topic
  · dsimp only
    rw [Filter.threshold_fileStem]
    refine ⟨rfl, rfl, fun file' topic hfound => ?_⟩
    rw [Std.TreeMap.getElem?_insert] at hfound
    split at hfound
    · obtain rfl : file = file' := Std.compare_eq_iff_eq.mp ‹_›
      exact (Option.some.inj hfound).symm
    · exact h file' topic hfound
  · exact ⟨h file topic hseen, rfl, h⟩

theorem openStream_eq (logger : Logger) (attempt : Attempt) (log : List UInt8) :
    logger.openStream attempt log =
      let topic := (logger.topic attempt.site.file).1
      (if attempt.always || attempt.level.passes topic.threshold then
        some (.start (attempt.site.heading topic.name attempt.level attempt.errno) log)
      else none, (logger.topic attempt.site.file).2) := by
  rw [openStream]
  dsimp only
  split <;> rfl

theorem isLogging_eq (logger : Logger) (level : Level) (file : String) :
    logger.isLogging level file =
      (level.passes (logger.topic file).1.threshold, (logger.topic file).2) := rfl

/-- One call is answered from the filter, which changes as configured. -/
theorem Faithful.perform (h : logger.Faithful) (call : Call) :
    (logger.perform call).1 = logger.filter.answer call ∧
      (logger.perform call).2.filter = logger.filter.configured [call] ∧
      (logger.perform call).2.Faithful := by
  cases call with
  | openStream attempt log =>
    obtain ⟨htopic, hfilter, hfaithful⟩ := h.topic attempt.site.file
    rw [Logger.perform, openStream_eq, htopic]
    exact ⟨rfl, hfilter, hfaithful⟩
  | isLogging level file =>
    obtain ⟨htopic, hfilter, hfaithful⟩ := h.topic file
    rw [Logger.perform, isLogging_eq, htopic]
    exact ⟨rfl, hfilter, hfaithful⟩
  | setAll level => exact ⟨rfl, rfl, faithful_of_forgetful _⟩

/-- Any calls leave the filter as configured, and a memory that tells the truth. -/
theorem Faithful.after (h : logger.Faithful) (calls : List Call) :
    (logger.after calls).filter = logger.filter.configured calls ∧
      (logger.after calls).Faithful := by
  induction calls generalizing logger with
  | nil => exact ⟨rfl, h⟩
  | cons call calls ih =>
    obtain ⟨-, hfilter, hfaithful⟩ := h.perform call
    obtain ⟨hafter, hfaithful'⟩ := ih hfaithful
    refine ⟨?_, hfaithful'⟩
    rw [Filter.configured_cons, ← hfilter]
    exact hafter

/-- Once a level is set for every file, the filter has it for all of them, and nothing is remembered
from before. -/
theorem after_setAll (logger : Logger) (level : Level) {later : List Call}
    (hquiet : ∀ call ∈ later, call.level? = none) :
    ((logger.setAll level).after later).filter = .uniform level ∧
      ((logger.setAll level).after later).Faithful := by
  obtain ⟨hfilter, hfaithful⟩ := (faithful_of_forgetful (.uniform level)).after later
  rw [Filter.configured_of_quiet _ hquiet] at hfilter
  exact ⟨hfilter, hfaithful⟩

/-- A stream is opened for the records that the filter admits, and for those that pass always. -/
theorem Faithful.isSome_openStream (h : logger.Faithful) (attempt : Attempt) (log : List UInt8) :
    (logger.openStream attempt log).1.isSome =
      (attempt.always || logger.filter.admits attempt.level attempt.site.file) := by
  have hadmits : attempt.level.passes (logger.filter.topicOf attempt.site.file).threshold =
    logger.filter.admits attempt.level attempt.site.file := rfl
  rw [openStream_eq, (h.topic attempt.site.file).1]
  dsimp only
  rw [hadmits]
  cases attempt.always || logger.filter.admits attempt.level attempt.site.file <;> rfl

theorem Faithful.isLogging (h : logger.Faithful) (level : Level) (file : String) :
    (logger.isLogging level file).1 = logger.filter.admits level file := by
  rw [isLogging_eq, (h.topic file).1]
  rfl

/-- Whatever a logger was asked before, it answers as the filter that is configured by then says of
the stem of the file: it logs what is at least as severe as the level of the stem, if the filter has
one for it, or else as the level for everything. Streams are opened for the records that it is said
to be logging, and for those that pass always. Once a level is set for every file, it holds for the
files seen before and for the others. -/
theorem answers_as_configured (filter : Filter) (calls : List Call) :
    let logger := Logger.after { filter } calls
    let configured := filter.configured calls
    (∀ level file, (logger.isLogging level file).1 =
      decide (level.rank ≤
        (configured.topics[Text.fileStem file]?.getD configured.fallback).rank)) ∧
      (∀ attempt log, (logger.openStream attempt log).1.isSome =
        (attempt.always || (logger.isLogging attempt.level attempt.site.file).1)) ∧
      (∀ call, (logger.perform call).1 = configured.answer call) ∧
      ∀ level later, (∀ call ∈ later, call.level? = none) →
        let logger := (logger.setAll level).after later
        ∀ attempt log,
          (logger.openStream attempt log).1.isSome =
              (attempt.always || decide (attempt.level.rank ≤ level.rank)) ∧
            (logger.isLogging attempt.level attempt.site.file).1 =
              decide (attempt.level.rank ≤ level.rank) := by
  intro logger configured
  obtain ⟨hfilter, hfaithful⟩ := (faithful_of_forgetful filter).after calls
  have hfilter : logger.filter = configured := hfilter
  refine ⟨fun level file => ?_, fun attempt log => ?_, fun call => ?_,
    fun level later hquiet => ?_⟩
  · rw [hfaithful.isLogging, hfilter, Filter.admits, Filter.levelOf_eq_getD]
  · rw [hfaithful.isSome_openStream, hfaithful.isLogging]
  · rw [← hfilter]
    exact (hfaithful.perform call).1
  · intro logger' attempt log
    obtain ⟨hset, hfaithful'⟩ := logger.after_setAll level hquiet
    have hadmits : logger'.filter.admits attempt.level attempt.site.file =
        decide (attempt.level.rank ≤ level.rank) := by
      rw [hset, Filter.admits, Filter.levelOf_uniform]
    rw [hfaithful'.isSome_openStream, hfaithful'.isLogging, hadmits]
    exact ⟨rfl, rfl⟩

/-- Two files with one stem are seen, which has a level of its own, and a third file has the level
for everything. Then another level is set for every file: it holds for one of those seen and for a
file that was not seen. -/
theorem answers_as_configured_one_stem :
    let filter := Filter.parse "all:warn, store:debug"
    let calls : List Call := [.isLogging .debug "src/store.rs", .isLogging .info "test/store.rs"]
    let later : List Call := [.isLogging .debug "src/main.rs"]
    let logger := Logger.after { filter } calls
    let silenced := (logger.setAll .error).after later
    (∀ call ∈ later, call.level? = none) ∧
      (logger.isLogging .debug "src/store.rs").1 = true ∧
      (logger.isLogging .debug "lib/store.rs").1 = true ∧
      (logger.isLogging .info "src/main.rs").1 = false ∧
      (logger.isLogging .warn "src/main.rs").1 = true ∧
      (silenced.isLogging .warn "src/store.rs").1 = false ∧
      (silenced.isLogging .error "src/fork.rs").1 = true := by
  intro filter calls later logger silenced
  have hfilter : filter =
      { fallback := .warn, topics := (∅ : Std.TreeMap String Level).insert "store" .debug } := rfl
  have hquiet : ∀ call ∈ later, call.level? = none := by simp [later, Call.level?]
  obtain ⟨hlogging, -, -, hset⟩ := answers_as_configured filter calls
  have hconfigured : filter.configured calls = filter :=
    Filter.configured_of_quiet filter (by simp [calls, Call.level?])
  have hstore : filter.topics["store"]? = some .debug := by
    rw [hfilter, Std.TreeMap.getElem?_insert_self]
  have hmain : filter.topics["main"]? = none := by
    rw [hfilter, Std.TreeMap.getElem?_insert, if_neg (by decide), Std.TreeMap.getElem?_emptyc]
  have hown : ∀ file, Text.fileStem file = "store" →
      (logger.isLogging .debug file).1 = true := by
    intro file hstem
    rw [hlogging, hconfigured, hstem, hstore]
    rfl
  have hdefault : ∀ level, (logger.isLogging level "src/main.rs").1 =
      decide (level.rank ≤ Level.warn.rank) := by
    intro level
    have hstem : Text.fileStem "src/main.rs" = "main" := by decide
    rw [hlogging, hconfigured, hstem, hmain, hfilter]
    rfl
  have hseen := (hset .error later hquiet
    { level := .warn, site := ⟨"src/store.rs", 1⟩, always := false, errno := 0 } []).2
  have hunseen := (hset .error later hquiet
    { level := .error, site := ⟨"src/fork.rs", 1⟩, always := false, errno := 0 } []).2
  exact ⟨hquiet, hown _ (by decide), hown _ (by decide), hdefault .info, hdefault .warn, hseen,
    hunseen⟩

end Logger

end BranchTrace
