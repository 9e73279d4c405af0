import Mathlib.Data.List.TakeDrop
import TestTriage.Proofs.Bundling
import TestTriage.Proofs.Go.FenceLines

/-!
# The fences of a prompt

A prompt shows the texts of a test and those of what it calls in two blocks,
each between a line that opens it and a line of three backquotes. Whoever
reads it line by line has a block end at the first such line (`block?_eq`), so
both blocks are read as they were written just if no text has a line of this
kind (`sections?_prompt`). In the texts of declarations such a line can only
be one of a comment that goes over several lines (`processFile_sections`), and
nothing keeps it from being there (`prompt_broken`).
-/

namespace TestTriage

open Text (rows)

/-! ## Reading a prompt -/

/-- The line that opens a block. -/
def opening : List Char := "```go".toList

/-- The lines of a block below its heading, up to the first that closes it, and the
lines behind that one. -/
def block? (heading : String) : List (List Char) → Option (List (List Char) × List (List Char))
  | first :: second :: lines =>
    if first = heading.toList ∧ second = opening then
      match lines.span (· != fence) with
      | (inner, _ :: behind) => some (inner, behind)
      | (_, []) => none
    else none
  | _ => none

/-- What is read of a prompt from its first block on. -/
structure Sections where
  tests : List (List Char)
  dependencies : List (List Char)
  /-- The lines behind the second block. -/
  rest : List (List Char)
  deriving DecidableEq

/-- The two blocks, a line between them, and what stands behind. -/
def sections? (lines : List (List Char)) : Option Sections := do
  let (tests, lines) ← block? "Test Code:" lines
  let (dependencies, rest) ← block? "Function Code:" (lines.drop 1)
  return ⟨tests, dependencies, rest⟩

variable {heading : String} {lines inner behind : List (List Char)}

/-- A block ends at the first line that looks like a fence. -/
theorem block?_eq :
    block? heading (heading.toList :: opening :: (inner ++ fence :: behind))
      = some (inner.takeWhile (· != fence),
        (inner.dropWhile (· != fence) ++ fence :: behind).tail) := by
  have hspan : (inner ++ fence :: behind).span (· != fence)
      = (inner.takeWhile (· != fence), inner.dropWhile (· != fence) ++ fence :: behind) := by
    rw [List.span_eq_takeWhile_dropWhile, Prod.mk.injEq]
    induction inner with
    | nil => simp
    | cons line inner ih => by_cases hline : line = fence <;> simp [hline, ih]
  have hcut : inner.dropWhile (· != fence) ++ fence :: behind ≠ [] := by simp
  obtain ⟨line, later, hlater⟩ := List.exists_cons_of_ne_nil hcut
  rw [block?, if_pos ⟨rfl, rfl⟩, hspan, hlater]
  rfl

/-- A block is read as it was written if none of its lines looks like a fence. -/
theorem block?_of_notMem (h : fence ∉ inner) :
    block? heading (heading.toList :: opening :: (inner ++ fence :: behind))
      = some (inner, behind) := by
  have hinner : ∀ line ∈ inner, (line != fence) = true := fun line hline =>
    bne_iff_ne.mpr fun heq => h (heq ▸ hline)
  rw [block?_eq, List.takeWhile_eq_self_iff.mpr hinner, List.dropWhile_eq_nil_iff.mpr hinner]
  rfl

/-- No line of a block that is read looks like a fence. -/
theorem notMem_of_block? (h : block? heading lines = some (inner, behind)) : fence ∉ inner := by
  rw [block?.eq_def] at h
  split at h
  · next first second lines =>
      split at h
      · split at h
        · next hspan =>
            cases h
            rw [List.span_eq_takeWhile_dropWhile] at hspan
            intro hmem
            rw [← (Prod.mk.inj hspan).1] at hmem
            exact absurd (List.mem_takeWhile_imp hmem) (by simp)
        · cases h
      · cases h
  · cases h

/-! ## Prompts as lines -/

namespace Bundle

/-- What a prompt says in front of its first block. -/
def foreword (b : Bundle) : String :=
  instructions ++ (if b.fullTestName.isEmpty then "" else "\n\nFailing Test: " ++ b.fullTestName)
    ++ "\n"

/-- What a prompt says behind its second block. -/
def afterword (b : Bundle) : String :=
  "Test Error: " ++ b.testError ++ "\n\nYour explanation and recommended changes:"

/-- The lines of a prompt from the heading of its first block on. -/
def shown (b : Bundle) : List (List Char) := (rows b.prompt).drop (rows b.foreword).length

theorem rows_fenced (sources : List String) :
    rows (fenced sources) = opening :: (sources.flatMap rows ++ [fence]) := by
  have hopening : rows "```go" = [opening] := by decide
  have hfence : rows "```" = [fence] := by decide
  rw [fenced, List.cons_append, Text.rows_intercalate, List.flatMap_cons, List.flatMap_append,
    List.flatMap_singleton, hopening, hfence]
  rfl

/-- The lines of a prompt: two blocks of texts below their headings. -/
theorem rows_prompt (b : Bundle) :
    rows b.prompt = rows b.foreword
      ++ "Test Code:".toList :: opening :: (b.testSources.flatMap rows
        ++ fence :: [] :: "Function Code:".toList :: opening :: (b.dependencySources.flatMap rows
          ++ fence :: rows b.afterword)) := by
  have hprompt : b.prompt
      = b.foreword ++ "\n" ++ ("Test Code:" ++ "\n" ++ (fenced b.testSources ++ "\n" ++ ("" ++ "\n"
        ++ ("Function Code:" ++ "\n" ++ (fenced b.dependencySources ++ "\n"
          ++ b.afterword))))) := by
    simp only [prompt, foreword, afterword, String.append_assoc]
    rfl
  have hheading : ∀ s : String, '\n' ∉ s.toList → rows s = [s.toList] := fun s h =>
    Text.rows_of_notMem h
  rw [hprompt]
  simp only [Text.rows_append, rows_fenced, hheading "Test Code:" (by decide),
    hheading "" (by decide), hheading "Function Code:" (by decide), List.append_assoc,
    List.cons_append, List.nil_append]
  rfl

theorem shown_eq (b : Bundle) :
    b.shown = "Test Code:".toList :: opening :: (b.testSources.flatMap rows
      ++ fence :: [] :: "Function Code:".toList :: opening :: (b.dependencySources.flatMap rows
        ++ fence :: rows b.afterword)) := by
  rw [shown, rows_prompt, List.drop_left]

/-- **A prompt can be read back just if no text in it has a line that looks like a
fence.** -/
theorem sections?_prompt (b : Bundle) :
    sections? b.shown
        = some ⟨b.testSources.flatMap rows, b.dependencySources.flatMap rows, rows b.afterword⟩
      ↔ ∀ source ∈ b.testSources ++ b.dependencySources, fence ∉ rows source := by
  rw [shown_eq]
  constructor
  · intro h
    rw [sections?, Option.bind_eq_bind, Option.bind_eq_some_iff] at h
    obtain ⟨⟨tests, lines⟩, htests, h⟩ := h
    obtain ⟨⟨dependencies, rest⟩, hdependencies, h⟩ := Option.bind_eq_some_iff.mp h
    obtain ⟨rfl, rfl, rfl⟩ := Sections.mk.inj (Option.some.inj h)
    intro source hsource hfence
    rcases List.mem_append.mp hsource with hsource | hsource
    · exact notMem_of_block? htests (List.mem_flatMap.mpr ⟨source, hsource, hfence⟩)
    · exact notMem_of_block? hdependencies (List.mem_flatMap.mpr ⟨source, hsource, hfence⟩)
  · intro h
    have hblock : ∀ sources ⊆ b.testSources ++ b.dependencySources,
        fence ∉ sources.flatMap rows := by
      intro sources hsources hmem
      obtain ⟨source, hsource, hfence⟩ := List.mem_flatMap.mp hmem
      exact h source (hsources hsource) hfence
    have htests := hblock b.testSources (List.subset_append_left _ _)
    have hdependencies := hblock b.dependencySources (List.subset_append_right _ _)
    simp only [sections?, block?_of_notMem htests, bind, Option.bind, List.drop_succ_cons,
      List.drop_zero, block?_of_notMem hdependencies]
    rfl

end Bundle

/-! ## Prompts of a file -/

namespace Triage

variable {g : Triage} {t : FileTree} {p : Path} {tests : List FailingTest} {bundles : List Bundle}
  {b : Bundle}

/-- Every text of a bundle is that of a declaration. -/
theorem exists_declaration_of_source (h : g.processFile t p tests = .ok bundles) (hb : b ∈ bundles)
    {source : String} (hsource : source ∈ b.testSources ++ b.dependencySources) :
    ∃ path text f d, Go.SourceFile.read path text = .ok f ∧ d ∈ f.declarations
      ∧ d.text = source := by
  obtain ⟨testFile, implementation, htest, hother, rfl⟩ := processFile_eq_ok.mp h
  obtain ⟨test, -, rfl⟩ := List.mem_map.mp hb
  have hread : ∀ {path : Path} {f : Go.SourceFile} {needed : Go.Declaration → Bool},
      t.readSource path = .ok f → source ∈ (f.declarations.filter needed).map (·.text) →
      ∃ path text f d, Go.SourceFile.read path text = .ok f ∧ d ∈ f.declarations
        ∧ d.text = source := by
    intro path f needed hfile hmem
    obtain ⟨text, -, hread⟩ := FileTree.readSource_eq_ok.mp hfile
    obtain ⟨d, hd, htext⟩ := List.mem_map.mp hmem
    exact ⟨path, text, f, d, hread, (List.mem_filter.mp hd).1, htext⟩
  rcases List.mem_append.mp hsource with hsource | hsource
  · exact hread htest hsource
  · exact hread hother hsource

/-- **The fences of a prompt hold but for comments.** The first block is read up to the
first line of three backquotes, and the prompt comes apart as it was put together just if
no comment of a text has such a line. -/
theorem processFile_sections (h : g.processFile t p tests = .ok bundles) (hb : b ∈ bundles) :
    (block? "Test Code:" b.shown).map (·.1)
        = some ((b.testSources.flatMap rows).takeWhile (· != fence))
      ∧ (sections? b.shown
          = some ⟨b.testSources.flatMap rows, b.dependencySources.flatMap rows, rows b.afterword⟩
        ↔ ∀ source ∈ b.testSources ++ b.dependencySources, ∀ l ∈ Go.lexemes source,
            l.kind = .comment → fence ∉ rows l.text) := by
  constructor
  · rw [Bundle.shown_eq, block?_eq]
    rfl
  · rw [Bundle.sections?_prompt]
    refine forall₂_congr fun source hsource => ?_
    obtain ⟨path, text, f, d, hread, hd, rfl⟩ := exists_declaration_of_source h hb hsource
    rw [Go.SourceFile.fence_mem_text hread hd]
    simp only [not_exists, not_and]

/-- A test with backquotes in its comment and in its strings, none of them alone on
a line. -/
def quotedStrings : FileTree :=
  ((FileTree.ofStart []).write ⟨"pkg/a_test.go"⟩
    "package pkg\n\n// ```\nfunc TestA() \x7b a(`\n`, ``) \x7d\n".toUTF8).write ⟨"pkg/a.go"⟩
    "package pkg\n\nfunc a() {}\n".toUTF8

theorem processFile_sections_quotedStrings :
    let g : Triage := { locator := { root := ⟨"."⟩ } }
    let b : Bundle := {
      testName := "TestA"
      fullTestName := "TestA"
      testFile := some ⟨"pkg/a_test.go"⟩
      implementationFile := some ⟨"pkg/a.go"⟩
      testSources := ["// ```\nfunc TestA() \x7b a(`\n`, ``) \x7d"]
      dependencySources := ["func a() {}"]
      testError := "bad" }
    g.processFile quotedStrings ⟨"pkg/a_test.go"⟩ [⟨"TestA", "bad"⟩] = .ok [b]
      ∧ sections? b.shown = some ⟨b.testSources.flatMap rows, b.dependencySources.flatMap rows,
        rows b.afterword⟩ := by
  intro g b
  have hbundles : g.processFile quotedStrings ⟨"pkg/a_test.go"⟩ [⟨"TestA", "bad"⟩] = .ok [b] := by
    decide +kernel
  have hcomments : ∀ source ∈ b.testSources ++ b.dependencySources, ∀ l ∈ Go.lexemes source,
      l.kind = .comment → fence ∉ rows l.text := by
    decide +kernel
  exact ⟨hbundles, (processFile_sections hbundles List.mem_cons_self).2.mpr hcomments⟩

/-- A test whose comment has lines of three backquotes. -/
def quotedComment : FileTree :=
  ((FileTree.ofStart []).write ⟨"pkg/a_test.go"⟩
    "package pkg\n\n/*\n```\nTestA(t)\n```\n*/\nfunc TestA() { a() }\n".toUTF8).write ⟨"pkg/a.go"⟩
    "package pkg\n\nfunc a() {}\n".toUTF8

/-- The block of the test ends in its comment, and no second block is found behind it. -/
theorem prompt_broken :
    let g : Triage := { locator := { root := ⟨"."⟩ } }
    let b : Bundle := {
      testName := "TestA"
      fullTestName := "TestA"
      testFile := some ⟨"pkg/a_test.go"⟩
      implementationFile := some ⟨"pkg/a.go"⟩
      testSources := ["/*\n```\nTestA(t)\n```\n*/\nfunc TestA() { a() }"]
      dependencySources := ["func a() {}"]
      testError := "bad" }
    g.processFile quotedComment ⟨"pkg/a_test.go"⟩ [⟨"TestA", "bad"⟩] = .ok [b]
      ∧ (block? "Test Code:" b.shown).map (·.1) = some ["/*".toList]
      ∧ sections? b.shown = none := by
  intro g b
  rw [Bundle.shown_eq]
  exact ⟨by decide +kernel, by decide +kernel, by decide +kernel⟩

end Triage

end TestTriage
