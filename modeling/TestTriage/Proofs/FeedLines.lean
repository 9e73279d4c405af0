import TestTriage.Feed
import TestTriage.Proofs.Json.Reading
import TestTriage.Proofs.Json.Writing

/-!
# Feeds are read back

How a list of events may be written as a feed (`FeedText`). Each event
stands on a line of its own, as an object whose members tell of it
(`Tells`): at each of the four keys the last member counts, members with
other keys do not, and a text that is empty may be left out or have
something in its place that is no string. The objects are spelled as
freely as JSON allows.

Whatever way is taken, the events are read back (`events_of_feedText`), and
there always is one (`exists_feedText`). Lines are cut at line feeds before
anything is read, so the one fact about JSON that this rests on, apart from
its values being read back, is that an object has no line feed in its text.
-/

namespace TestTriage

open Text (Bytes utf8)
open Json (Value code IsGap Padded ValueText OneLine)

/-! ## Members that tell of an event -/

/-- What members say at a key. -/
inductive Says (key : String) : String → List (String × Value) → Prop where
  | string {s : String} {front behind : List (String × Value)}
      (hlast : ∀ m ∈ behind, m.1 ≠ key) : Says key s (front ++ (key, .string s) :: behind)
  | mistyped {v : Value} {front behind : List (String × Value)} (hv : v.string? = none)
      (hlast : ∀ m ∈ behind, m.1 ≠ key) : Says key "" (front ++ (key, v) :: behind)
  | absent {ms : List (String × Value)} (h : ∀ m ∈ ms, m.1 ≠ key) : Says key "" ms

/-- Members that tell of an event. -/
structure Tells (e : Event) (ms : List (String × Value)) : Prop where
  action : Says "Action" e.tag ms
  test : Says "Test" e.test ms
  output : Says "Output" e.output ms
  package : Says "Package" e.package ms

theorem get?_last {key : String} {v : Value} {front behind : List (String × Value)}
    (hlast : ∀ m ∈ behind, m.1 ≠ key) : Value.get? key (front ++ (key, v) :: behind) = some v := by
  have hnone : behind.reverse.find? (·.1 == key) = none := by simpa using hlast
  simp [Value.get?, List.find?_append, hnone]

theorem get?_absent {key : String} {ms : List (String × Value)} (h : ∀ m ∈ ms, m.1 ≠ key) :
    Value.get? key ms = none := by
  simpa [Value.get?] using h

theorem field_of_says {key s : String} {ms : List (String × Value)} (h : Says key s ms) :
    Event.field ms key = s := by
  cases h with
  | string hlast => rw [Event.field, get?_last hlast]; rfl
  | mistyped hv hlast => rw [Event.field, get?_last hlast, Option.bind_some, hv]; rfl
  | absent h => rw [Event.field, get?_absent h]; rfl

theorem ofMembers_of_tells {e : Event} {ms : List (String × Value)} (h : Tells e ms) :
    Event.ofMembers ms = e := by
  rw [Event.ofMembers, field_of_says h.action, field_of_says h.test, field_of_says h.output,
    field_of_says h.package]

namespace Feed

/-! ## Feeds -/

/-- A line that tells of an event: an object, with white space around it. -/
inductive EventLine (e : Event) : Bytes → Prop where
  | object {ms : List (String × Value)} {line : Bytes} (hms : Tells e ms)
      (h : Padded (ValueText Json.depthLimit (.object ms)) line) : EventLine e line

/-- White space of ASCII on one line. -/
def BlankLine (line : Bytes) : Prop :=
  ∀ b ∈ line, b = code '\t' ∨ b = code '\x0c' ∨ b = code '\r' ∨ b = code ' '

/-- The end of a line. -/
inductive LineEnd : Bytes → Prop where
  | lf : LineEnd [code '\n']
  | crlf : LineEnd [code '\r', code '\n']

/-- How events may be written as a feed. -/
inductive FeedText : List Event → Bytes → Prop where
  /-- The last line may lack its end, or not be there at all. -/
  | lastBlank {line : Bytes} (h : BlankLine line) : FeedText [] line
  | lastEvent {e : Event} {line : Bytes} (h : EventLine e line) : FeedText [e] line
  | blank {es : List Event} {line ending feed : Bytes} (h : BlankLine line) (hend : LineEnd ending)
      (hs : FeedText es feed) : FeedText es (line ++ ending ++ feed)
  | event {e : Event} {es : List Event} {line ending feed : Bytes} (h : EventLine e line)
      (hend : LineEnd ending) (hs : FeedText es feed) : FeedText (e :: es) (line ++ ending ++ feed)

/-! ## Cutting into lines -/

theorem lines_append {line : Bytes} (h : OneLine line) (feed : Bytes) :
    lines (line ++ newline :: feed) = line :: lines feed := by
  induction line with
  | nil => simp [lines]
  | cons b bs ih =>
      obtain ⟨hb, hbs⟩ := Json.oneLine_cons.mp h
      have hb : b ≠ newline := hb
      rw [List.cons_append, lines, if_neg hb, ih hbs]

theorem lines_last {line : Bytes} (h : OneLine line) (hne : line ≠ []) : lines line = [line] := by
  induction line with
  | nil => exact absurd rfl hne
  | cons b bs ih =>
      obtain ⟨hb, hbs⟩ := Json.oneLine_cons.mp h
      have hb : b ≠ newline := hb
      rw [lines, if_neg hb]
      cases bs with
      | nil => rfl
      | cons c cs => rw [ih hbs (List.cons_ne_nil _ _)]

/-! ## Reading lines -/

theorem oneLine_of_blankLine {line : Bytes} (h : BlankLine line) : OneLine line :=
  Json.oneLine_of_forall fun b hb => by rcases h b hb with rfl | rfl | rfl | rfl <;> decide

theorem isBlank_of_blankLine {line : Bytes} (h : BlankLine line) : isBlank line = true :=
  List.all_eq_true.mpr fun b hb => by rcases h b hb with rfl | rfl | rfl | rfl <;> decide

theorem oneLine_of_eventLine {e : Event} {line : Bytes} (h : EventLine e line) : OneLine line := by
  obtain ⟨-, h⟩ := h
  exact Json.oneLine_of_padded h fun t ht => Json.oneLine_of_valueText ht

/-- An object is no white space. -/
theorem isBlank_of_eventLine {e : Event} {line : Bytes} (h : EventLine e line) :
    isBlank line = false := by
  obtain ⟨-, hbefore, htext, hbehind⟩ := h
  have htext : Json.CompoundText (ValueText (Json.depthLimit - 1)) (.object _) _ := htext
  have hbrace : isSpace (code '\x7b') = false := by decide
  cases htext with
  | scalar h => cases h
  | object h => cases h <;> simp [isBlank, hbrace]

theorem EventLine.append_gap {e : Event} {line gap : Bytes} (h : EventLine e line)
    (hgap : IsGap gap) : EventLine e (line ++ gap) := by
  obtain ⟨hms, hbefore, htext, hbehind⟩ := h
  refine .object hms ?_
  rw [List.append_assoc]
  refine .pad hbefore htext fun b hb => ?_
  exact (List.mem_append.mp hb).elim (hbehind b) (hgap b)

theorem eventsBehind_blank {before : Nat} {line : Bytes} (h : isBlank line = true)
    (ls : List Bytes) : eventsBehind before (line :: ls) = eventsBehind (before + 1) ls := by
  rw [eventsBehind, if_pos h]

theorem eventsBehind_event {e : Event} {es : List Event} {before : Nat} {line : Bytes}
    {ls : List Bytes} (h : EventLine e line) (hs : eventsBehind (before + 1) ls = .ok es) :
    eventsBehind before (line :: ls) = .ok (e :: es) := by
  have hblank := isBlank_of_eventLine h
  obtain ⟨hms, h⟩ := h
  simp only [eventsBehind, hblank, Bool.false_eq_true, if_false, Json.readObject_padded h, hs,
    ofMembers_of_tells hms]
  rfl

/-- A carriage return in front of a line feed is white space at the end of the
line. -/
theorem lines_lineEnd {line ending : Bytes} (h : OneLine line) (hend : LineEnd ending)
    (feed : Bytes) : ∃ gap, (∀ b ∈ gap, b = code '\r')
      ∧ lines (line ++ ending ++ feed) = (line ++ gap) :: lines feed := by
  cases hend with
  | lf =>
      refine ⟨[], List.forall_mem_nil _, ?_⟩
      rw [List.append_assoc, List.append_nil]
      exact lines_append h feed
  | crlf =>
      have hline : OneLine (line ++ [code '\r']) :=
        Json.oneLine_append.mpr ⟨h, by decide⟩
      refine ⟨[code '\r'], by simp, ?_⟩
      have hcut := lines_append hline feed
      rw [List.append_assoc] at hcut
      rw [List.append_assoc]
      exact hcut

theorem eventsBehind_of_feedText {es : List Event} {feed : Bytes} (h : FeedText es feed)
    (before : Nat) : eventsBehind before (lines feed) = .ok es := by
  induction h generalizing before with
  | @lastBlank line h =>
      cases line with
      | nil => rfl
      | cons b bs =>
          rw [lines_last (oneLine_of_blankLine h) (List.cons_ne_nil _ _),
            eventsBehind_blank (isBlank_of_blankLine h)]
          rfl
  | @lastEvent e line h =>
      have hne : line ≠ [] := by
        rintro rfl
        exact absurd (isBlank_of_eventLine h) (by decide)
      rw [lines_last (oneLine_of_eventLine h) hne]
      exact eventsBehind_event h rfl
  | blank h hend _ ih =>
      obtain ⟨gap, hgap, hcut⟩ := lines_lineEnd (oneLine_of_blankLine h) hend _
      have hblank : BlankLine _ := fun b hb =>
        (List.mem_append.mp hb).elim (h b) fun hb => .inr (.inr (.inl (hgap b hb)))
      rw [hcut, eventsBehind_blank (isBlank_of_blankLine hblank), ih]
  | event h hend _ ih =>
      obtain ⟨gap, hgap, hcut⟩ := lines_lineEnd (oneLine_of_eventLine h) hend _
      rw [hcut]
      exact eventsBehind_event (h.append_gap fun b hb => .inr (.inr (hgap b hb))) (ih _)

/-- However events are written as a feed, they are read back in their order. -/
theorem events_of_feedText {es : List Event} {feed : Bytes} (h : FeedText es feed) :
    events feed = .ok es := eventsBehind_of_feedText h 0

/-- A blank line; an event with an earlier member overridden, a character by its
code and a member of no meaning; an event of which nothing is told, without a
line end. -/
theorem events_of_free_spelling :
    events (utf8 ("\t\r\n \x7b\"Action\":null,\"Action\" : \"\\u0066ail\",\"X\":[\x7b\x7d]\x7d\r\n"
        ++ "\x7b\x7d"))
      = .ok [⟨"fail", "", "", ""⟩, ⟨"", "", "", ""⟩] := by
  have hspace : IsGap [code ' '] := by simp [IsGap]
  have hnone : IsGap [] := List.forall_mem_nil _
  have hcode : Json.CharText 'f' (['\\', 'u', '0', '0', '6', '6'].map code) :=
    .byCode (.digits (w := 0) (x := 0) (y := 6) (z := 6) (by decide) (by decide) (by decide)
      (by decide))
  have hplain : Json.CharsText ['a', 'i', 'l'] _ := Json.charsText_plain (by simp)
  have hfail : Json.StringText "fail" _ := .quotes (.cons hcode hplain)
  have hnull : Json.MemberText (ValueText 126) ("Action", .null) _ :=
    .member (Json.stringText_quoted _) hnone hnone (.scalar .null)
  have haction : Json.MemberText (ValueText 126) ("Action", .string "fail") _ :=
    .member (Json.stringText_quoted _) hspace hspace (.scalar (.string hfail))
  have hinner : Json.CompoundText (ValueText 124) (.object []) _ := .object (.empty hnone)
  have hother : Json.MemberText (ValueText 126) ("X", .array [.object []]) _ :=
    .member (Json.stringText_quoted _) hnone hnone
      (.array (.items (.one (Json.padded_self hinner))))
  have hobject : Json.CompoundText (ValueText 126) (.object _) _ :=
    .object (.items (.cons (Json.padded_self hnull) (.cons (Json.padded_self haction)
      (.one (Json.padded_self hother)))))
  have htells : Tells ⟨"fail", "", "", ""⟩
      [("Action", .null), ("Action", .string "fail"), ("X", .array [.object []])] :=
    { action := @Says.string _ _ [_] _ (by simp)
      test := .absent (by simp)
      output := .absent (by simp)
      package := .absent (by simp) }
  have hevent : EventLine ⟨"fail", "", "", ""⟩ _ := .object htells (.pad hspace hobject hnone)
  have hnothing : Json.CompoundText (ValueText 126) (.object []) _ := .object (.empty hnone)
  have hlast : EventLine ⟨"", "", "", ""⟩ _ :=
    .object ⟨.absent (by simp), .absent (by simp), .absent (by simp), .absent (by simp)⟩
      (Json.padded_self hnothing)
  have hblank : BlankLine [code '\t'] := by simp [BlankLine]
  have hfeed := FeedText.blank hblank .crlf (.event hevent .crlf (.lastEvent hlast))
  exact events_of_feedText hfeed

/-! ## Writing feeds -/

/-- The members that tell of an event and of nothing else. -/
def members (e : Event) : List (String × String) :=
  [("Action", e.tag), ("Test", e.test), ("Output", e.output), ("Package", e.package)]

def object (e : Event) : String :=
  "\x7b" ++ ",".intercalate ((members e).map fun m => Json.quoted m.1 ++ ":" ++ Json.quoted m.2)
    ++ "\x7d"

theorem tells_members (e : Event) : Tells e ((members e).map fun m => (m.1, .string m.2)) where
  action := @Says.string _ _ [] _ (by simp)
  test := @Says.string _ _ [_] _ (by simp)
  output := @Says.string _ _ [_, _] _ (by simp)
  package := @Says.string _ _ [_, _, _] _ (by simp)

/-- Every event has a line that tells of it. -/
theorem eventLine_object (e : Event) : EventLine e (utf8 (object e)) := by
  have hlisted : Json.Listed (Json.MemberText (ValueText (Json.depthLimit - 1)))
      ((members e).map fun m => (m.1, Value.string m.2)) _ :=
    Json.listed_intercalate
      (fun m : String × String =>
        Json.memberText_quoted m.1 m.2 fun _ => Json.valueText_string _) _ _
  have htext : Json.CompoundText (ValueText (Json.depthLimit - 1)) _ _ := .object (.items hlisted)
  refine .object (tells_members e) (Json.padded_self ?_)
  rw [object, Json.utf8_braces]
  exact htext

/-- Every list of events can be written as a feed. -/
theorem exists_feedText (es : List Event) : ∃ feed, FeedText es feed := by
  induction es with
  | nil => exact ⟨[], .lastBlank (List.forall_mem_nil _)⟩
  | cons e es ih =>
      obtain ⟨feed, hfeed⟩ := ih
      exact ⟨_, .event (eventLine_object e) .lf hfeed⟩

end Feed

end TestTriage
