import Mathlib.Data.List.DropRight
import Mathlib.Data.List.Infix
import TestTriage.Correlation
import TestTriage.Proofs.Grouping

/-!
# One pass against rescanning

`Correlator.correlate` collects the first file and the first message of
every test in one pass, before it visits a fail marker. The plain way to
say what it computes goes over all the events again for every marker:
`rescan` looks up the first output of the marker's test that names a
file, and the first that holds `: `, wherever they stand, and `byFile`
sorts what it finds by file. `correlate_eq_rescan` says that both ways
give the same index.

The pass is one fold for files and for messages alike, and its invariant
is that every test has the first value told of it so far
(`lookup_foldl_note`). The fold over the markers is the filling of
an index, which `Grouping` describes.
-/

namespace TestTriage

open Grouping

/-! ## The first place of a mark -/

/-- How many characters stand in front of the first place of a mark. -/
def markPlace (mark cs : List Char) : Nat := cs.tails.findIdx (mark.isPrefixOf ·)

/-- The text in front of the first place of a mark. -/
def textBefore (mark cs : List Char) : List Char := cs.take (markPlace mark cs)

/-- The text behind the mark at its first place. -/
def textBehind (mark cs : List Char) : List Char := cs.drop (markPlace mark cs + mark.length)

theorem splitAtMark?_eq (mark cs : List Char) :
    splitAtMark? mark cs
      = if mark <:+: cs then some (textBefore mark cs, textBehind mark cs) else none := by
  induction cs with
  | nil => cases mark <;> simp [splitAtMark?, textBefore, textBehind]
  | cons c cs ih =>
      rw [splitAtMark?]
      by_cases hp : mark <+: c :: cs
      · have hb : mark.isPrefixOf (c :: cs) = true := List.isPrefixOf_iff_prefix.mpr hp
        have hplace : markPlace mark (c :: cs) = 0 := by
          rw [markPlace, List.tails_cons, List.findIdx_cons, hb, cond_true]
        rw [if_pos hb, if_pos hp.isInfix, textBefore, textBehind, hplace, Nat.zero_add]
        rfl
      · have hb : mark.isPrefixOf (c :: cs) = false := by
          simpa [← List.isPrefixOf_iff_prefix] using hp
        have hplace : markPlace mark (c :: cs) = markPlace mark cs + 1 := by
          simp [markPlace, List.findIdx_cons, hb]
        rw [if_neg (by simp [hb]), ih]
        by_cases hi : mark <:+: cs
        · rw [if_pos hi, if_pos (List.infix_cons_iff.mpr (Or.inr hi))]
          simp [textBefore, textBehind, hplace, Nat.add_right_comm]
        · rw [if_neg hi, if_neg fun h => (List.infix_cons_iff.mp h).elim hp hi]
          rfl

namespace Correlator

/-! ## What was told first -/

theorem lookup_noteFirst (key k : String) (value : Option String)
    (notes : List (String × String)) :
    (noteFirst key value notes).lookup k
      = (notes.lookup k).or (if key = k then value else none) := by
  by_cases hk : key = k
  · subst hk
    cases hn : notes.lookup key <;> cases value <;> simp [noteFirst, hn]
  · have hb : (k == key) = false := beq_false_of_ne (Ne.symm hk)
    cases hn : notes.lookup key <;> cases value <;>
      simp [noteFirst, hn, hk, List.lookup_cons, hb]

/-- The notes behind one more event: what `told` reads off its output, if its
test had none. -/
def note (told : String → Option String) (notes : List (String × String)) (e : Event) :
    List (String × String) :=
  if e.test.isEmpty then notes else noteFirst e.test (told e.output) notes

theorem lookup_foldl_note (told : String → Option String) (events : List Event)
    (notes : List (String × String)) {test : String} (ht : test ≠ "") :
    (events.foldl (note told) notes).lookup test
      = (notes.lookup test).or
          (events.findSome? fun e => if e.test = test then told e.output else none) := by
  induction events generalizing notes with
  | nil => simp
  | cons e es ih =>
      rw [List.foldl_cons, ih, List.findSome?_cons, note]
      by_cases he : e.test = test
      · rw [if_neg (by simpa [he] using ht), lookup_noteFirst, if_pos he, Option.or_assoc]
        cases told e.output <;> rfl
      · rw [if_neg he]
        split
        · rfl
        · rw [lookup_noteFirst, if_neg he, Option.or_none]

theorem clues_eq (c : Correlator) (events : List Event) :
    c.clues events
      = ⟨events.foldl (note c.fileName?) [], events.foldl (note errorMessage?) []⟩ := by
  suffices h : ∀ clues : Clues, events.foldl (Clues.add c) clues
      = ⟨events.foldl (note c.fileName?) clues.files,
          events.foldl (note errorMessage?) clues.messages⟩ from h ⟨[], []⟩
  induction events with
  | nil => exact fun _ => rfl
  | cons e es ih =>
      intro clues
      rw [List.foldl_cons, ih, List.foldl_cons, List.foldl_cons, Clues.add]
      by_cases he : e.test.isEmpty <;> simp [note, he]

/-! ## Rescanning -/

/-- The first event of a test whose output holds a mark, among all the events. -/
def firstTelling (mark : List Char) (test : String) (events : List Event) : Option Event :=
  events.find? fun e => e.test = test ∧ mark <:+: e.output.toList

/-- The file that the first output of a test to name one names: what stands in
front of the mark, without white space around it, and the ending. -/
def rescanFile (c : Correlator) (events : List Event) (test : String) : Option String :=
  (firstTelling c.mark test events).map fun e =>
    String.ofList (Text.trim (textBefore c.mark e.output.toList) ++ '.' :: c.extension.toList)

/-- What stands behind the first `: ` of the first output of a test that holds
one, without the ends of lines after it. -/
def rescanMessage? (events : List Event) (test : String) : Option String :=
  (firstTelling [':', ' '] test events).map fun e =>
    String.ofList ((textBehind [':', ' '] e.output.toList).rdropWhile fun c =>
      c == '\n' || c == '\r')

/-- The failures that fail markers tell of, in their order, each with its file;
markers of tests that name no file are left out. -/
def rescan (c : Correlator) (events : List Event) : List (Path × FailingTest) :=
  (events.filter fun e => e.tag = "fail" ∧ e.test ≠ "").filterMap fun marker =>
    (c.rescanFile events marker.test).map fun file =>
      (⟨file⟩, ⟨marker.test, (rescanMessage? events marker.test).getD ""⟩)

/-- Failing tests sorted by file: a slot for every file in the order of its first
failing test, with all its failing tests in their order. -/
def byFile (failures : List (Path × FailingTest)) : List FileFailures :=
  (firsts FailureIndex.fileKey failures).map fun x =>
    ⟨x.1, (failures.filter (x.1.same ·.1)).map (·.2)⟩

theorem findSome?_ite_eq_find? {α β : Type} (p : α → Prop) [DecidablePred p] (f : α → β)
    (xs : List α) :
    (xs.findSome? fun x => if p x then some (f x) else none) = (xs.find? (p ·)).map f := by
  induction xs with
  | nil => rfl
  | cons x xs ih => by_cases hx : p x <;> simp [hx, ih]

theorem lookup_files (c : Correlator) (events : List Event) {test : String} (ht : test ≠ "") :
    (c.clues events).files.lookup test = c.rescanFile events test := by
  rw [clues_eq, lookup_foldl_note _ _ _ ht, rescanFile, firstTelling, ← findSome?_ite_eq_find?]
  simp only [List.lookup_nil, Option.none_or]
  refine congrArg (events.findSome? ·) (funext fun e => ?_)
  rw [fileName?, splitAtMark?_eq]
  by_cases he : e.test = test <;> by_cases hm : c.mark <:+: e.output.toList <;> simp [he, hm]

theorem lookup_messages (c : Correlator) (events : List Event) {test : String}
    (ht : test ≠ "") : (c.clues events).messages.lookup test = rescanMessage? events test := by
  rw [clues_eq, lookup_foldl_note _ _ _ ht, rescanMessage?, firstTelling,
    ← findSome?_ite_eq_find?]
  simp only [List.lookup_nil, Option.none_or]
  refine congrArg (events.findSome? ·) (funext fun e => ?_)
  rw [errorMessage?, splitAtMark?_eq]
  by_cases he : e.test = test <;> by_cases hm : [':', ' '] <:+: e.output.toList <;>
    simp [he, hm, Text.dropEndWhile, List.rdropWhile]

theorem ofTag_eq_fail {tag : String} : Action.ofTag tag = .fail ↔ tag = "fail" := by
  constructor
  · intro h
    unfold Action.ofTag at h
    split_ifs at h
    assumption
  · rintro rfl
    rfl

theorem isFailMarker_iff (e : Event) :
    e.isFailMarker = true ↔ e.tag = "fail" ∧ e.test ≠ "" := by
  simp [Event.isFailMarker, Event.action, ofTag_eq_fail]

/-- The fold over the markers puts their failures into the index, one after the
other. -/
theorem correlate_eq_pushAll (c : Correlator) (events : List Event) :
    c.correlate events = .pushAll ∅ (c.rescan events) := by
  have hmarkers : events.filter Event.isFailMarker
      = events.filter fun e => e.tag = "fail" ∧ e.test ≠ "" :=
    List.filter_congr fun e _ => by rw [Bool.eq_iff_iff, isFailMarker_iff, decide_eq_true_iff]
  rw [correlate, rescan, FailureIndex.pushAll, List.foldl_filterMap, hmarkers]
  refine List.foldl_ext _ _ _ fun index marker hm => ?_
  have ht : marker.test ≠ "" := (of_decide_eq_true (List.mem_filter.mp hm).2).2
  rw [indexMarker, lookup_files c events ht, lookup_messages c events ht]
  cases c.rescanFile events marker.test <;> rfl

theorem slots_correlate (c : Correlator) (events : List Event) :
    (c.correlate events).slots = byFile (c.rescan events) := by
  rw [correlate_eq_pushAll, (FailureIndex.holds_pushAll_empty _).slots_eq, byFile]
  simp only [FailureIndex.slotOf, FailureIndex.alike_fileKey]

/-- **One pass is as good as rescanning.** The slots of the index are the
failures of `rescan` sorted by file, and a file is found at the place of its
slot. -/
theorem correlate_eq_rescan (c : Correlator) (events : List Event) :
    (c.correlate events).slots = byFile (c.rescan events)
      ∧ ∀ p, (c.correlate events).position? p
          = (byFile (c.rescan events)).findIdx? (·.path.same p) := by
  refine ⟨slots_correlate c events, fun p => ?_⟩
  have h := FailureIndex.holds_pushAll_empty (c.rescan events)
  rw [← correlate_eq_pushAll] at h
  rw [FailureIndex.position?, h.lookup_eq, byFile, List.findIdx?_map]
  rfl

end Correlator

end TestTriage
