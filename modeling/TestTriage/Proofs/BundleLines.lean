import TestTriage.Proofs.FeedLines
import TestTriage.Run

/-!
# Bundles are handed on without loss

The bundles of a run in the JSON format, cut at line feeds, are as many
lines as bundles, and every line is read back as its bundle
(`lines_renderAll_json`). Behind a bundle's line stand the members that the
writer puts into it, a file only where there is one (`present`), and the
reader goes through them one by one: what it has gathered at the end is the
bundle, a file that was left out being none (`gathers_present`,
`bundle_foldl_fill`).
-/

namespace TestTriage.Bundle

open Text (Bytes utf8)
open Json (Read code Takes Adds Gathers Ends OneLine)

/-! ## Fields -/

/-- The fields that are written of a bundle. -/
def present (b : Bundle) : List Field :=
  .testName :: .fullTestName :: ((b.testFile.map fun _ => Field.testFile).toList
    ++ (b.implementationFile.map fun _ => Field.implementationFile).toList
    ++ [.testSources, .dependencySources, .testError])

/-- What is written of a bundle at a field. -/
def fieldText (b : Bundle) : Field → String
  | .testName => Json.quoted b.testName
  | .fullTestName => Json.quoted b.fullTestName
  | .testFile => (b.testFile.map fun p => Json.quoted p.text).getD ""
  | .implementationFile => (b.implementationFile.map fun p => Json.quoted p.text).getD ""
  | .testSources => Json.quotedList b.testSources
  | .dependencySources => Json.quotedList b.dependencySources
  | .testError => Json.quoted b.testError

/-- What is written of a bundle between the braces. -/
def membersText (b : Bundle) : String :=
  ",".intercalate (b.present.map fun f => written f (b.fieldText f))

/-- What has been gathered, with one more field of the bundle. -/
def fill (b : Bundle) (g : Gathered) : Field → Gathered
  | .testName => { g with testName := some b.testName }
  | .fullTestName => { g with fullTestName := some b.fullTestName }
  | .testFile => { g with testFile := some b.testFile }
  | .implementationFile => { g with implementationFile := some b.implementationFile }
  | .testSources => { g with testSources := some b.testSources }
  | .dependencySources => { g with dependencySources := some b.dependencySources }
  | .testError => { g with testError := some b.testError }

theorem toJson_eq (b : Bundle) : b.toJson = "\x7b" ++ b.membersText ++ "\x7d" := by
  cases htest : b.testFile <;> cases himplementation : b.implementationFile <;>
    simp [toJson, membersText, present, fieldText, htest, himplementation]

theorem Field.ofKey?_key (f : Field) : Field.ofKey? f.key = some f := by cases f <;> decide

theorem has_empty (f : Field) : ({} : Gathered).has f = false := by cases f <;> rfl

theorem has_fill (b : Bundle) (g : Gathered) (f f' : Field) :
    (b.fill g f).has f' = (decide (f = f') || g.has f') := by
  cases f <;> cases f' <;> rfl

/-- With all its fields put together the bundle is complete. -/
theorem bundle_foldl_fill (b : Bundle) : (b.present.foldl b.fill {}).bundle = .ok b := by
  obtain ⟨testName, fullTestName, testFile, implementationFile, _, _, _⟩ := b
  cases testFile <;> cases implementationFile <;> rfl

/-! ## Reading the value of a field -/

theorem takes_stringValue (expected : String) {s : String} {t : Bytes} (h : Json.StringText s t) :
    Takes (stringValue expected) s t := by
  obtain ⟨h⟩ := h
  refine ⟨⟨_, _, rfl, by decide, by decide⟩, fun rest _ => ?_⟩
  simp only [List.cons_append, List.append_assoc, List.nil_append]
  rw [stringValue, Json.skipSpace_cons (by decide)]
  exact Json.string_append h rest

theorem takes_pathValue {p : Path} {t : Bytes} (h : Json.StringText p.text t) :
    Takes pathValue (some p) t := by
  have hstring := takes_stringValue "path string" h
  obtain ⟨h⟩ := h
  refine ⟨hstring.begins, fun rest hrest => ?_⟩
  have hread := hstring.reads rest hrest
  rw [List.cons_append, List.cons_append] at hread ⊢
  rw [pathValue, Json.skipSpace_cons (by decide)]
  simp only [if_neg (show code '"' ≠ code 'n' by decide), hread, bind, Except.bind]
  rfl

theorem takes_stringsValue {ss : List String} {t : Bytes}
    (h : Json.Enclosed '[' ']' Json.StringText ss t) : Takes stringsValue ss t := by
  obtain ⟨inner, rfl, hread⟩ := Json.items_enclosed (fun _ _ => takes_stringValue "a string") h
  refine ⟨⟨_, _, rfl, by decide, by decide⟩, fun rest _ => ?_⟩
  rw [List.cons_append, stringsValue, Json.skipSpace_cons (by decide)]
  exact hread rest

/-- The text of a field takes what has been gathered one field further. -/
theorem value_fieldText {b : Bundle} {f : Field} (hf : f ∈ b.present) (g : Gathered) {rest : Bytes}
    (hrest : Ends rest) : f.value g (utf8 (b.fieldText f) ++ rest) = .ok (b.fill g f, rest) := by
  have hstring : ∀ s, stringValue "a string" (utf8 (Json.quoted s) ++ rest) = .ok (s, rest) :=
    fun s => (takes_stringValue _ (Json.stringText_quoted s)).reads rest hrest
  have hpath : ∀ p : Path, pathValue (utf8 (Json.quoted p.text) ++ rest) = .ok (some p, rest) :=
    fun p => (takes_pathValue (Json.stringText_quoted p.text)).reads rest hrest
  have hstrings : ∀ ss, stringsValue (utf8 (Json.quotedList ss) ++ rest) = .ok (ss, rest) :=
    fun ss => (takes_stringsValue (Json.enclosed_quotedList ss)).reads rest hrest
  cases f with
  | testName | fullTestName | testError => rw [Field.value, fieldText, hstring]; rfl
  | testSources | dependencySources => rw [Field.value, fieldText, hstrings]; rfl
  | testFile =>
      -- a file that is none has no member
      cases hfile : b.testFile with
      | none => exact absurd hf (by simp [present, hfile])
      | some p => simp [Field.value, fieldText, fill, hfile, hpath, Except.map]
  | implementationFile =>
      cases hfile : b.implementationFile with
      | none => exact absurd hf (by simp [present, hfile])
      | some p => simp [Field.value, fieldText, fill, hfile, hpath, Except.map]

/-! ## Reading the members -/

theorem adds_written {b : Bundle} {f : Field} (hf : f ∈ b.present) {g : Gathered}
    (hg : g.has f = false) : Adds member g (b.fill g f) (utf8 (written f (b.fieldText f))) := by
  rw [written, Text.utf8_append, Text.utf8_append, List.append_assoc]
  refine .member (Json.stringText_quoted f.key) fun rest hrest => ?_
  have hcolon : Json.colon (utf8 ":" ++ utf8 (b.fieldText f) ++ rest)
      = .ok (utf8 (b.fieldText f) ++ rest) := rfl
  simp only [member, Field.ofKey?_key, hg, Bool.false_eq_true, if_false, hcolon, bind, Except.bind]
  exact value_fieldText hf g hrest

theorem gathers_written {b : Bundle} {f : Field} {fs : List Field} (hnodup : (f :: fs).Nodup)
    (hpresent : ∀ f' ∈ f :: fs, f' ∈ b.present) {g : Gathered}
    (hg : ∀ f' ∈ f :: fs, g.has f' = false) :
    Gathers member g ((f :: fs).foldl b.fill g)
      (utf8 (",".intercalate ((f :: fs).map fun f => written f (b.fieldText f)))) := by
  induction fs generalizing f g with
  | nil =>
      rw [List.map_singleton, String.intercalate_singleton]
      exact .one (Json.padded_self (adds_written (hpresent f List.mem_cons_self)
        (hg f List.mem_cons_self)))
  | cons f' fs ih =>
      obtain ⟨hf, hfs⟩ := List.nodup_cons.mp hnodup
      obtain ⟨hpf, hpfs⟩ := List.forall_mem_cons.mp hpresent
      obtain ⟨hgf, hgfs⟩ := List.forall_mem_cons.mp hg
      have hfilled : ∀ f'' ∈ f' :: fs, (b.fill g f).has f'' = false := by
        intro f'' hf''
        have hne : f ≠ f'' := fun h => hf (h ▸ hf'')
        rw [has_fill, hgfs f'' hf'', decide_eq_false hne]
        rfl
      have ih := ih hfs hpfs hfilled
      simp only [List.map_cons] at ih ⊢
      rw [String.intercalate_cons_cons, Text.utf8_append, Text.utf8_append, List.append_assoc]
      exact .cons (Json.padded_self (adds_written hpf hgf)) ih

theorem nodup_present (b : Bundle) : b.present.Nodup := by
  cases htest : b.testFile <;> cases himplementation : b.implementationFile <;>
    simp [present, htest, himplementation]

/-- What has been gathered from the members are the fields of the bundle. -/
theorem gathers_present (b : Bundle) :
    Gathers member {} (b.present.foldl b.fill {}) (utf8 b.membersText) :=
  gathers_written (nodup_present b) (fun _ h => h) fun f _ => has_empty f

/-- A bundle is read back from its JSON. -/
theorem ofJson_toJson (b : Bundle) : ofJson (utf8 b.toJson) = .ok b := by
  have hlimit : (utf8 b.membersText).length + 1
      < (utf8 b.membersText ++ [code '\x7d']).length + 1 := by simp
  have hread := Json.members_gathers (.first Json.isSpacing_nil) (gathers_present b) [] hlimit
  rw [List.nil_append] at hread
  rw [toJson_eq, Json.utf8_braces, ofJson, Json.whole, ofValue, List.cons_append,
    Json.skipSpace_cons (by decide)]
  simp only [if_true, hread, bundle_foldl_fill, bind, Except.bind]
  rfl

/-! ## Lines -/

theorem oneLine_fieldText (b : Bundle) (f : Field) : OneLine (utf8 (b.fieldText f)) := by
  have hstring : ∀ s, OneLine (utf8 (Json.quoted s)) := fun s =>
    Json.oneLine_of_stringText (Json.stringText_quoted s)
  have hpath : ∀ p : Option Path,
      OneLine (utf8 ((p.map fun p => Json.quoted p.text).getD "")) := by
    rintro (- | p)
    · exact Json.oneLine_nil
    · exact hstring p.text
  have hstrings : ∀ ss, OneLine (utf8 (Json.quotedList ss)) := fun ss =>
    Json.oneLine_of_enclosed (Json.enclosed_quotedList ss) (by decide) (by decide)
      fun _ _ h => Json.oneLine_of_stringText h
  cases f with
  | testName | fullTestName | testError => exact hstring _
  | testFile | implementationFile => exact hpath _
  | testSources | dependencySources => exact hstrings _

theorem oneLine_toJson (b : Bundle) : OneLine (utf8 b.toJson) := by
  have hwritten : ∀ f, OneLine (utf8 (written f (b.fieldText f))) := by
    intro f
    have hcolon : OneLine (utf8 ":") := by decide
    have hkey := Json.oneLine_of_stringText (Json.stringText_quoted f.key)
    simp [written, hkey, hcolon, oneLine_fieldText b f]
  have hmembers : OneLine (utf8 b.membersText) :=
    Json.oneLine_intercalate (by simpa using fun f _ => hwritten f)
  rw [toJson_eq, Json.utf8_braces]
  simpa [hmembers] using by decide

theorem lines_join (bs : List Bundle) :
    Feed.lines (utf8 (String.join (bs.map (OutputFormat.render .json))))
      = bs.map fun b => utf8 b.toJson := by
  induction bs with
  | nil => rfl
  | cons b bs ih =>
      have hend : utf8 "\n" = [Feed.newline] := by decide
      rw [List.map_cons, String.join_cons, OutputFormat.render, Text.utf8_append, Text.utf8_append,
        hend, List.append_assoc, List.singleton_append, Feed.lines_append (oneLine_toJson b), ih]
      rfl

/-- What is printed in the JSON format has one line for each bundle, and every line
is read back as its bundle. -/
theorem lines_renderAll_json (outcomes : List FileOutcome) :
    (Feed.lines (utf8 (renderAll .json outcomes))).map ofJson
      = (outcomes.flatMap FileOutcome.bundles).map .ok := by
  rw [renderAll, lines_join, List.map_map]
  refine List.map_congr_left fun b _ => ?_
  rw [Function.comp_apply, ofJson_toJson]

end TestTriage.Bundle
