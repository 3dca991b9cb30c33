import BranchTrace.Log.Event
import BranchTrace.Proofs.Log.Remembering
import BranchTrace.Proofs.Log.Topics

/-!
# Records in the log

A record reaches the log in pieces: one at each flush, and the last one when its stream is closed.
What was handed over and what still waits are at every moment the heading and the bytes written so
far (`Stream.total_step`), so the pieces do not show in the end.

Main statement: `Logger.record_of_chunks`, the log after a record. Written through a stream in any
pieces, the words of an event become the record that the event has
(`Logger.Faithful.record_of_event`).
-/

namespace BranchTrace

/-! ## Bytes of a text -/

namespace Text

theorem toList_eq_data (bytes : ByteArray) : bytes.toList = bytes.data.toList := by
  have hloop : ∀ i done, ByteArray.toList.loop bytes i done =
      done.reverse ++ bytes.data.toList.drop i := by
    intro i done
    fun_induction ByteArray.toList.loop bytes i done with
    | case1 i done hi ih =>
      have hlt : i < bytes.data.toList.length := hi
      rw [ih, List.drop_eq_getElem_cons hlt]
      simp [ByteArray.get!, getElem!_pos, hi]
    | case2 i done hi =>
      have hge : bytes.data.toList.length ≤ i := Nat.le_of_not_lt hi
      rw [List.drop_eq_nil_of_le hge, List.append_nil]
  rw [ByteArray.toList, hloop]
  rfl

/-- The bytes of two texts in a row. -/
theorem toUTF8_toList_append (a b : String) :
    (a ++ b).toUTF8.toList = a.toUTF8.toList ++ b.toUTF8.toList := by
  simp only [toList_eq_data, String.toUTF8_eq_toByteArray, String.toByteArray_append,
    ByteArray.data_append, Array.toList_append]

end Text

/-! ## Pieces of a record -/

namespace Stream

/-- The bytes that a step writes. -/
def Step.bytes : Step → List UInt8
  | .write bytes => bytes
  | .flush => []

/-- The log with what is not handed over yet. -/
def total (stream : Stream) : List UInt8 :=
  stream.log ++ stream.pending

theorem total_start (heading : String) (log : List UInt8) :
    (start heading log).total = log ++ heading.toUTF8.toList := rfl

/-- One step adds the bytes that it writes, whether or not they are handed over. -/
theorem total_step (stream : Stream) (step : Step) :
    (stream.step step).total = stream.total ++ step.bytes := by
  cases step with
  | write bytes => exact (List.append_assoc ..).symm
  | flush => simp only [Stream.step, flush, total, Step.bytes, List.append_nil]

theorem total_foldl_step (stream : Stream) (steps : List Step) :
    (steps.foldl Stream.step stream).total = stream.total ++ steps.flatMap Step.bytes := by
  induction steps generalizing stream with
  | nil => exact (List.append_nil _).symm
  | cons step steps ih =>
    rw [List.foldl_cons, ih, total_step, List.flatMap_cons, List.append_assoc]

/-- Closing a stream hands over all of it, with a line break at the end. -/
theorem close_eq (stream : Stream) : stream.close = stream.total ++ [10] :=
  (List.append_assoc ..).symm

end Stream

/-- The bytes of a record about a topic that is written in some steps. -/
def Attempt.line (attempt : Attempt) (topic : String) (steps : List Stream.Step) : List UInt8 :=
  (attempt.site.heading topic attempt.level attempt.errno).toUTF8.toList
    ++ steps.flatMap Stream.Step.bytes ++ [10]

namespace Logger

theorem record_eq (logger : Logger) (attempt : Attempt) (steps : List Stream.Step)
    (log : List UInt8) :
    logger.record attempt steps log =
      let topic := (logger.topic attempt.site.file).1
      let passes := attempt.always || attempt.level.passes topic.threshold
      (passes, log ++ (if passes then attempt.line topic.name steps else []),
        (logger.topic attempt.site.file).2) := by
  rw [record, openStream_eq]
  dsimp only
  cases attempt.always || attempt.level.passes (logger.topic attempt.site.file).1.threshold with
  | false => simp
  | true =>
    simp only [if_true, Attempt.line, Stream.close_eq, Stream.total_foldl_step,
      Stream.total_start, List.append_assoc]

/-- A record that passes adds to the log its heading, the bytes that were written and a line break,
however they were written and flushed. A record that does not pass adds nothing. -/
theorem record_of_chunks (filter : Filter) (calls : List Call) (attempt : Attempt)
    (steps : List Stream.Step) (log : List UInt8) :
    let logger := Logger.after { filter } calls
    let topic := Text.fileStem attempt.site.file
    let passes := attempt.always ||
      (filter.configured calls).admits attempt.level attempt.site.file
    (logger.record attempt steps log).1 = passes ∧
      (logger.record attempt steps log).2.1 =
        log ++ if passes then
          (attempt.site.heading topic attempt.level attempt.errno).toUTF8.toList
            ++ steps.flatMap Stream.Step.bytes ++ [10]
        else [] := by
  intro logger topic passes
  obtain ⟨hfilter, hfaithful⟩ := (faithful_of_forgetful filter).after calls
  have htopic := (hfaithful.topic attempt.site.file).1
  rw [hfilter] at htopic
  rw [record_eq, htopic]
  exact ⟨rfl, rfl⟩

-- the topic stands in front of a debug record
example :
    (Logger.record { filter := .uniform .debug }
      { level := .debug, site := ⟨"src/store.rs", 7⟩, always := false, errno := 5 }
      [.write "slot ".toUTF8.toList, .flush, .write "0".toUTF8.toList] []).2.1 =
    "[store] slot 0\n".toUTF8.toList := by
  cbv

-- and the place and the last error number in front of a warning
example :
    (Logger.record { filter := .uniform .debug }
      { level := .warn, site := ⟨"src/store.rs", 7⟩, always := false, errno := 5 }
      [.write "slot ".toUTF8.toList, .flush, .write "0".toUTF8.toList] []).2.1 =
    "[WARN src/store.rs:7 errno: EIO] slot 0\n".toUTF8.toList := by
  cbv

/-- The words of an event, written in any pieces, become its record. -/
theorem Faithful.record_of_event {logger : Logger} (h : logger.Faithful) (event : Event)
    (errno : Int32) {steps : List Stream.Step}
    (hsteps : steps.flatMap Stream.Step.bytes = event.text.toUTF8.toList) (log : List UInt8) :
    let attempt : Attempt := { level := event.level, site := event.site, always := false, errno }
    (logger.record attempt steps log).2.1 =
      log ++ if event.passes logger.filter then (event.record errno).toUTF8.toList else [] := by
  intro attempt
  have hname : Text.fileStem event.site.file = event.topic := event.fileStem_file
  have hbreak : "\n".toUTF8.toList = [10] := by
    rw [Text.toList_eq_data]
    rfl
  have hline : attempt.line event.topic steps = (event.record errno).toUTF8.toList := by
    rw [Attempt.line, hsteps, Event.record, Text.toUTF8_toList_append, Text.toUTF8_toList_append,
      hbreak]
  rw [record_eq, (h.topic event.site.file).1, Filter.topicOf, ← Filter.threshold_fileStem, hname,
    ← hline]
  rfl

end Logger

end BranchTrace
