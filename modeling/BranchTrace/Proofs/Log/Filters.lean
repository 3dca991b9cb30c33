import BranchTrace.Log.Filter
import Mathlib.Data.List.DropRight
import Mathlib.Data.List.TakeDrop
import Mathlib.Data.List.TakeWhile

/-!
# Filters as they are written

A filter is read item by item, and for each topic the last item about it counts
(`Filter.lastSaid`). So the thresholds of two texts with a comma between them are those of the
second where it gives any, and else those of the first; and a filter is read back from its items in
whatever order they are written, with blanks around their words and with items in between that say
nothing (`Filter.Renders`).

Main statement: `Filter.parse_as_written`.
-/

namespace BranchTrace

/-! ## Pieces of a text -/

namespace Text

theorem splitAll_eq_splitOn (sep : Char) (cs : List Char) : splitAll sep cs = cs.splitOn sep := by
  induction cs with
  | nil => rfl
  | cons c cs ih =>
    rw [splitAll, List.splitOn_cons_eq_if_modifyHead, ih]
    by_cases hc : c = sep
    · rw [if_pos hc, if_pos (beq_iff_eq.mpr hc)]
    · rw [if_neg hc, if_neg (mt beq_iff_eq.mp hc)]
      rcases hpieces : cs.splitOn sep with _ | ⟨piece, rest⟩
      · exact absurd (ih.trans hpieces) (splitAll_ne_nil sep cs)
      · rfl

theorem trim_eq (cs : List Char) : trim cs = (cs.dropWhile isBlank).rdropWhile isBlank := rfl

/-- Blanks around a text do not count. -/
theorem trim_surrounded {before after : List Char} (hbefore : ∀ c ∈ before, isBlank c)
    (hafter : ∀ c ∈ after, isBlank c) (cs : List Char) :
    trim (before ++ cs ++ after) = trim cs := by
  rw [List.append_assoc, trim_eq, trim_eq, List.dropWhile_append_of_pos hbefore,
    List.dropWhile_append]
  split
  · have hnil : cs.dropWhile isBlank = [] := List.isEmpty_iff.mp ‹_›
    rw [List.dropWhile_eq_nil_iff.mpr hafter, hnil]
  · rw [List.rdropWhile, List.reverse_append, List.dropWhile_append_of_pos]
    · rfl
    · exact fun c hc => hafter c (List.mem_reverse.mp hc)

end Text

/-- The word for a level in a filter. -/
def Level.word : Level → String
  | fatal => "fatal"
  | error => "error"
  | warn => "warn"
  | info => "info"
  | debug => "debug"

theorem Level.ofWord_word (level : Level) :
    Level.ofWord (Text.trim level.word.toList) = level := by
  cases level <;> decide

theorem Level.not_mem_word (level : Level) : ',' ∉ level.word.toList := by
  cases level <;> decide

namespace Filter

/-! ## Items -/

theorem splitItem_of_not_mem {item : List Char} (h : ':' ∉ item) : splitItem item = none := by
  have hdrop : item.dropWhile (· ≠ ':') = [] := by
    refine List.dropWhile_eq_nil_iff.mpr fun c hc => decide_eq_true ?_
    rintro rfl
    exact h hc
  rw [splitItem, List.span_eq_takeWhile_dropWhile, hdrop]

/-- An item is split at its first colon. -/
theorem splitItem_append {name : List Char} (h : ':' ∉ name) (word : List Char) :
    splitItem (name ++ ':' :: word) = some (name, word) := by
  have hname : ∀ c ∈ name, decide (c ≠ ':') = true := by
    rintro c hc
    refine decide_eq_true ?_
    rintro rfl
    exact h hc
  rw [splitItem, List.span_eq_takeWhile_dropWhile, List.takeWhile_append_of_pos hname,
    List.dropWhile_append_of_pos hname, List.takeWhile_cons_of_neg (by decide),
    List.dropWhile_cons_of_neg (by decide), List.append_nil]

/-- The level that an item gives to a topic. -/
def levelIn (topic : String) (item : List Char) : Option Level :=
  match splitItem item with
  | none => none
  | some (name, word) =>
    if Text.trim name = topic.toList then some (Level.ofWord (Text.trim word)) else none

theorem levelIn_of_not_mem (topic : String) {item : List Char} (h : ':' ∉ item) :
    levelIn topic item = none := by
  rw [levelIn, splitItem_of_not_mem h]

theorem levelIn_append (topic : String) {name : List Char} (h : ':' ∉ name) (word : List Char) :
    levelIn topic (name ++ ':' :: word) =
      if Text.trim name = topic.toList then some (Level.ofWord (Text.trim word)) else none := by
  rw [levelIn, splitItem_append h]

/-- An item about a topic names it before its first colon. -/
def About (topic : String) (item : List Char) : Prop :=
  ∃ name word, item = name ++ ':' :: word ∧ ':' ∉ name ∧ Text.trim name = topic.toList

theorem isSome_levelIn {topic : String} {item : List Char} :
    (levelIn topic item).isSome ↔ About topic item := by
  constructor
  · intro h
    by_cases hcolon : ':' ∈ item
    · obtain ⟨name, word, rfl, hname⟩ := List.eq_append_cons_of_mem hcolon
      rw [levelIn_append topic hname, Option.isSome_ite] at h
      exact ⟨name, word, rfl, hname, h⟩
    · rw [levelIn_of_not_mem topic hcolon] at h
      cases h
  · rintro ⟨name, word, rfl, hname, htopic⟩
    rw [levelIn_append topic hname, if_pos htopic]
    rfl

theorem fallback_addItem (filter : Filter) (item : List Char) :
    (filter.addItem item).fallback = (levelIn "all" item).getD filter.fallback := by
  unfold addItem levelIn
  rcases splitItem item with _ | ⟨name, word⟩
  · rfl
  · dsimp only
    split <;> rfl

theorem topics_addItem (filter : Filter) (item : List Char) (topic : String) :
    (filter.addItem item).topics[topic]? =
      if topic = "all" then filter.topics[topic]?
      else (levelIn topic item).or filter.topics[topic]? := by
  unfold addItem levelIn
  rcases splitItem item with _ | ⟨name, word⟩
  · exact (ite_self _).symm
  · dsimp only
    obtain ⟨name, hname⟩ : ∃ s : String, s.toList = Text.trim name := ⟨_, String.toList_ofList⟩
    simp only [← hname, String.toList_inj, String.ofList_toList]
    by_cases hall : name = "all"
    · subst hall
      rw [if_pos rfl]
      split
      · rfl
      · rw [if_neg (Ne.symm ‹_›)]
        rfl
    · rw [if_neg hall, Std.TreeMap.getElem?_insert]
      simp only [Std.compare_eq_iff_eq]
      by_cases hname : name = topic
      · subst hname
        rw [if_pos rfl, if_neg hall, if_pos rfl]
        rfl
      · rw [if_neg hname, if_neg hname, Option.none_or, ite_self]

/-! ## Texts -/

/-- The level that the last item about a topic gives to it. -/
def lastSaid (topic : String) (items : List (List Char)) : Option Level :=
  items.reverse.findSome? (levelIn topic)

theorem lastSaid_append (topic : String) (items later : List (List Char)) :
    lastSaid topic (items ++ later) = (lastSaid topic later).or (lastSaid topic items) := by
  rw [lastSaid, List.reverse_append, List.findSome?_append, lastSaid, lastSaid]

theorem lastSaid_cons (topic : String) (item : List Char) (items : List (List Char)) :
    lastSaid topic (item :: items) = (lastSaid topic items).or (levelIn topic item) := by
  rw [lastSaid, List.reverse_cons, List.findSome?_append, List.findSome?_singleton, lastSaid]

theorem isSome_lastSaid {topic : String} {items : List (List Char)} :
    (lastSaid topic items).isSome ↔ ∃ item ∈ items, About topic item := by
  simp only [lastSaid, List.findSome?_isSome_iff, List.mem_reverse, isSome_levelIn]

theorem fallback_foldl_addItem (filter : Filter) (items : List (List Char)) :
    (items.foldl addItem filter).fallback = (lastSaid "all" items).getD filter.fallback := by
  induction items generalizing filter with
  | nil => rfl
  | cons item items ih =>
    rw [List.foldl_cons, ih, fallback_addItem, lastSaid_cons, Option.getD_or]

theorem topics_foldl_addItem (filter : Filter) (items : List (List Char)) (topic : String) :
    (items.foldl addItem filter).topics[topic]? =
      if topic = "all" then filter.topics[topic]?
      else (lastSaid topic items).or filter.topics[topic]? := by
  induction items generalizing filter with
  | nil => exact (ite_self _).symm
  | cons item items ih =>
    rw [List.foldl_cons, ih, topics_addItem, lastSaid_cons]
    split
    · rfl
    · rw [Option.or_assoc]

/-- The items of a text. -/
def items (text : String) : List (List Char) :=
  Text.splitAll ',' text.toList

theorem items_append (text later : String) :
    items (text ++ "," ++ later) = items text ++ items later := by
  have hcomma : (text ++ "," ++ later).toList = text.toList ++ ',' :: later.toList := by
    rw [String.toList_append, String.toList_append, List.append_assoc]
    rfl
  rw [items, hcomma, Text.splitAll_eq_splitOn, List.splitOn_append_cons_self,
    ← Text.splitAll_eq_splitOn, ← Text.splitAll_eq_splitOn, items, items]

theorem fallback_parse (text : String) :
    (parse text).fallback = (lastSaid "all" (items text)).getD .debug :=
  fallback_foldl_addItem (uniform .debug) (items text)

theorem topics_parse (text topic : String) :
    (parse text).topics[topic]? = if topic = "all" then none else lastSaid topic (items text) := by
  have hnone : (uniform .debug).topics[topic]? = none := Std.TreeMap.getElem?_emptyc
  refine (topics_foldl_addItem (uniform .debug) (items text) topic).trans ?_
  rw [hnone, Option.or_none]

/-! ## Writing a filter -/

/-- What stands before and after a word. -/
structure Margins where
  before : List Char
  after : List Char

namespace Margins

/-- A word between margins. -/
def around (margins : Margins) (word : String) : List Char :=
  margins.before ++ word.toList ++ margins.after

/-- There is nothing but blanks. -/
structure Blank (margins : Margins) : Prop where
  before : ∀ c ∈ margins.before, Text.isBlank c
  after : ∀ c ∈ margins.after, Text.isBlank c

variable {margins : Margins}

theorem Blank.trim_around (h : margins.Blank) (word : String) :
    Text.trim (margins.around word) = Text.trim word.toList :=
  Text.trim_surrounded h.before h.after word.toList

theorem Blank.not_mem_around (h : margins.Blank) {c : Char} (hc : Text.isBlank c = false)
    {word : String} (hword : c ∉ word.toList) : c ∉ margins.around word := by
  have hbefore : c ∉ margins.before := fun hm => Bool.false_ne_true (hc.symm.trans (h.before c hm))
  have hafter : c ∉ margins.after := fun hm => Bool.false_ne_true (hc.symm.trans (h.after c hm))
  simp only [around, List.mem_append, hbefore, hword, hafter, or_self, not_false_iff]

end Margins

/-- An item as it is written. -/
inductive Item where
  /-- Gives a level to a topic, with margins around the topic and around the level. -/
  | entry (topic : String) (level : Level) (outer inner : Margins)
  /-- Says nothing. -/
  | idle (text : List Char)

namespace Item

/-- The text of an item. -/
def text : Item → List Char
  | entry topic level outer inner => outer.around topic ++ ':' :: inner.around level.word
  | idle text => text

/-- The level that an item gives to a topic. -/
def level? (topic : String) : Item → Option Level
  | entry name level _ _ => if name = topic then some level else none
  | idle _ => none

/-- The topic has no comma, no colon and no blanks around it, the margins are blank, and what says
nothing has no colon. -/
def WellFormed : Item → Prop
  | entry topic _ outer inner =>
    outer.Blank ∧ inner.Blank ∧ ',' ∉ topic.toList ∧ ':' ∉ topic.toList ∧
      Text.trim topic.toList = topic.toList
  | idle text => ',' ∉ text ∧ ':' ∉ text

variable {item : Item}

theorem WellFormed.not_mem_text (h : item.WellFormed) : ',' ∉ item.text := by
  cases item with
  | idle text => exact h.1
  | entry topic level outer inner =>
    obtain ⟨houter, hinner, htopic, -, -⟩ := h
    have hcolon : (',' : Char) ≠ ':' := by decide
    have hleft : ',' ∉ outer.around topic := houter.not_mem_around (by decide) htopic
    have hright : ',' ∉ inner.around level.word :=
      hinner.not_mem_around (by decide) level.not_mem_word
    simp only [text, List.mem_append, List.mem_cons, hleft, hright, hcolon, or_self,
      not_false_iff]

/-- An item is read as it was written. -/
theorem WellFormed.levelIn_text (h : item.WellFormed) (topic : String) :
    levelIn topic item.text = item.level? topic := by
  cases item with
  | idle text => exact levelIn_of_not_mem topic h.2
  | entry name level outer inner =>
    obtain ⟨houter, hinner, -, hname, htrim⟩ := h
    have hleft : ':' ∉ outer.around name := houter.not_mem_around (by decide) hname
    rw [text, levelIn_append topic hleft, houter.trim_around, hinner.trim_around, htrim,
      Level.ofWord_word, level?]
    simp only [String.toList_inj]

end Item

/-- The text of items, with a comma between each two. -/
def write (items : List Item) : String :=
  String.ofList ([','].intercalate (items.map Item.text))

/-- Items that say, in any order, what the thresholds are: those of the topics with one of their
own, and of all others if they say anything of these. -/
structure Renders (written : List Item) (fallback : Level) (topics : Std.TreeMap String Level) :
    Prop where
  wellFormed : ∀ item ∈ written, item.WellFormed
  others : ∀ item ∈ written, ∀ level, item.level? "all" = some level → level = fallback
  named : topics["all"]? = none
  each : ∀ topic, topic ≠ "all" → ∀ level,
    (∃ item ∈ written, item.level? topic = some level) ↔ topics[topic]? = some level

section Write

variable {written : List Item}

theorem items_write (h : ∀ item ∈ written, item.WellFormed) (hne : written ≠ []) :
    items (write written) = written.map Item.text := by
  rw [items, write, String.toList_ofList, Text.splitAll_eq_splitOn]
  refine List.splitOn_intercalate ',' (fun text htext => ?_) ?_
  · obtain ⟨item, hitem, rfl⟩ := List.mem_map.mp htext
    exact (h item hitem).not_mem_text
  · exact fun hnil => hne (List.map_eq_nil_iff.mp hnil)

/-- The items that are read from a written text say what those that were written do. -/
theorem levelIn_items_write (h : ∀ item ∈ written, item.WellFormed) (topic : String)
    (level : Level) :
    (∃ item ∈ items (write written), levelIn topic item = some level) ↔
      ∃ item ∈ written, item.level? topic = some level := by
  by_cases hne : written = []
  · subst hne
    have hempty : items (write []) = [[]] := rfl
    simp only [hempty, List.mem_singleton, exists_eq_left, List.not_mem_nil, false_and,
      exists_false, iff_false]
    exact nofun
  · rw [items_write h hne]
    constructor
    · rintro ⟨_, hmem, hsaid⟩
      obtain ⟨item, hitem, rfl⟩ := List.mem_map.mp hmem
      exact ⟨item, hitem, ((h item hitem).levelIn_text topic).symm.trans hsaid⟩
    · rintro ⟨item, hitem, hsaid⟩
      exact ⟨item.text, List.mem_map_of_mem hitem, ((h item hitem).levelIn_text topic).trans hsaid⟩

theorem lastSaid_eq {topic : String} {items : List (List Char)} {said : Option Level}
    (h : ∀ level, (∃ item ∈ items, levelIn topic item = some level) ↔ said = some level) :
    lastSaid topic items = said := by
  rcases hlast : lastSaid topic items with _ | level
  · have hnone := List.findSome?_eq_none_iff.mp hlast
    rcases said with _ | level
    · rfl
    · obtain ⟨item, hitem, hsaid⟩ := (h level).mpr rfl
      have hsilent := hnone item (List.mem_reverse.mpr hitem)
      cases hsilent.symm.trans hsaid
  · obtain ⟨item, hitem, hsaid⟩ := List.exists_of_findSome?_eq_some hlast
    exact ((h level).mp ⟨item, List.mem_reverse.mp hitem, hsaid⟩).symm

variable {fallback : Level} {topics : Std.TreeMap String Level}

theorem Renders.topics_parse (h : Renders written fallback topics) (topic : String) :
    (parse (write written)).topics[topic]? = topics[topic]? := by
  rw [Filter.topics_parse]
  split
  · rw [‹topic = "all"›, h.named]
  · refine lastSaid_eq fun level => ?_
    rw [levelIn_items_write h.wellFormed]
    exact h.each topic ‹_› level

theorem Renders.fallback_parse (h : Renders written fallback topics) :
    (parse (write written)).fallback =
      if ∃ item ∈ written, (item.level? "all").isSome then fallback else .debug := by
  rw [Filter.fallback_parse]
  split
  · obtain ⟨item, hitem, hsome⟩ := ‹∃ item ∈ written, _›
    obtain ⟨level, hlevel⟩ := Option.isSome_iff_exists.mp hsome
    have hlast : lastSaid "all" (items (write written)) = some fallback := by
      refine lastSaid_eq fun level' => ?_
      rw [levelIn_items_write h.wellFormed]
      constructor
      · rintro ⟨item', hitem', hlevel'⟩
        rw [h.others item' hitem' level' hlevel']
      · intro hfallback
        obtain rfl := Option.some.inj hfallback
        exact ⟨item, hitem, by rw [hlevel, h.others item hitem level hlevel]⟩
    rw [hlast]
    rfl
  · have hlast : lastSaid "all" (items (write written)) = none := by
      refine lastSaid_eq fun level => ?_
      rw [levelIn_items_write h.wellFormed]
      refine ⟨fun ⟨item, hitem, hlevel⟩ => ?_, nofun⟩
      exact absurd ⟨item, hitem, by rw [hlevel]; rfl⟩ ‹¬∃ item ∈ written, _›
    rw [hlast]
    rfl

end Write

/-- Between two texts with a comma the items of the second come last: its thresholds hold where it
gives any, and else those of the first. And a filter is read back from items that say it, in any
order and with any blanks, and with items in between that say nothing. -/
theorem parse_as_written :
    (∀ text later : String,
        ((∃ item ∈ items later, About "all" item) →
          (parse (text ++ "," ++ later)).fallback = (parse later).fallback) ∧
        ((∀ item ∈ items later, ¬About "all" item) →
          (parse (text ++ "," ++ later)).fallback = (parse text).fallback) ∧
        ∀ topic : String, (parse (text ++ "," ++ later)).topics[topic]? =
          (parse later).topics[topic]?.or (parse text).topics[topic]?) ∧
      ∀ (fallback : Level) (topics : Std.TreeMap String Level) (written : List Item),
        Renders written fallback topics →
        (parse (write written)).fallback =
            (if ∃ item ∈ written, (item.level? "all").isSome then fallback else .debug) ∧
          ∀ topic : String, (parse (write written)).topics[topic]? = topics[topic]? := by
  refine ⟨fun text later => ?_, fun fallback topics written h => ⟨h.fallback_parse, h.topics_parse⟩⟩
  have hall : lastSaid "all" (items (text ++ "," ++ later)) =
      (lastSaid "all" (items later)).or (lastSaid "all" (items text)) := by
    rw [items_append, lastSaid_append]
  refine ⟨fun habout => ?_, fun hsilent => ?_, fun topic => ?_⟩
  · obtain ⟨level, hlevel⟩ := Option.isSome_iff_exists.mp (isSome_lastSaid.mpr habout)
    rw [fallback_parse, fallback_parse, hall, hlevel]
    rfl
  · have hnone : lastSaid "all" (items later) = none := by
      rw [← Option.not_isSome_iff_eq_none, isSome_lastSaid]
      rintro ⟨item, hitem, habout⟩
      exact hsilent item hitem habout
    rw [fallback_parse, fallback_parse, hall, hnone]
    rfl
  · rw [topics_parse, topics_parse, topics_parse, items_append, lastSaid_append]
    split <;> rfl

/-- A blank margin, of a tab and an ideographic space. -/
def wideMargins : Margins :=
  { before := ['\t'], after := ['\u3000'] }

theorem blank_wideMargins : wideMargins.Blank :=
  ⟨List.forall_mem_singleton.mpr (by decide), List.forall_mem_singleton.mpr (by decide)⟩

/-- A filter with one topic twice, a topic without a name, and the level of all others between
them. -/
theorem parse_as_written_scattered :
    let topics : Std.TreeMap String Level :=
      (({} : Std.TreeMap String Level).insert "store" .debug).insert "" .fatal
    let tight : Margins := { before := [], after := [] }
    let written : List Item := [.entry "store" .debug wideMargins tight, .idle "bogus".toList,
      .entry "all" .info tight wideMargins, .entry "" .fatal wideMargins tight, .idle [],
      .entry "store" .debug tight tight]
    Renders written .info topics ∧ (parse (write written)).fallback = .info ∧
      (parse (write written)).topics["store"]? = some .debug ∧
      (parse (write written)).topics[""]? = some .fatal ∧
      (parse (write written)).topics["bogus"]? = none := by
  intro topics tight written
  have htight : tight.Blank := ⟨nofun, nofun⟩
  have htopics : ∀ topic : String, topics[topic]? =
      if "" = topic then some .fatal else if "store" = topic then some .debug else none := by
    intro topic
    simp only [topics, Std.TreeMap.getElem?_insert, Std.compare_eq_iff_eq,
      Std.TreeMap.getElem?_emptyc]
  have hrenders : Renders written .info topics := by
    refine ⟨?_, ?_, ?_, fun topic htopic level => ?_⟩
    · have hwide := blank_wideMargins
      simp only [written, List.forall_mem_cons, List.not_mem_nil, false_imp_iff, implies_true,
        Item.WellFormed, htight, hwide, true_and, and_true]
      decide
    · simp [written, Item.level?]
    · rw [htopics]
      decide
    · rw [htopics]
      simp only [written, Item.level?, List.exists_mem_cons_iff, List.not_mem_nil, false_and,
        exists_false, or_false, false_or, Ne.symm htopic, if_false, reduceCtorEq]
      by_cases hstore : "store" = topic
      · subst hstore
        simp
      · by_cases hempty : "" = topic
        · simp [hempty, hstore]
        · simp [hempty, hstore]
  obtain ⟨hfallback, hthresholds⟩ := parse_as_written.2 .info topics written hrenders
  refine ⟨hrenders, hfallback, ?_, ?_, ?_⟩
  all_goals
    rw [hthresholds, htopics]
    decide

end Filter

end BranchTrace
