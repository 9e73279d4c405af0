import TestTriage.Proofs.Interleaving

/-!
# Reading a test's log back

A test that fails logs a line with the place, file and line number, and
the message (`logged`). From the output that holds it the file and the
message are read back, each by a search of its own for a mark: `.go:` ends
the file's name and `: ` the place. Both searches stop where they should,
whatever the message is (`fileName?_logged`, `errorMessage?_logged`): a
mark that began earlier would have to lie in the name, or else to run over
its end, and no mark goes on with what stands there (`MarkFree`).

So the fail markers of a test are recorded with file and message if this
is the first output of the test with either mark, wherever the markers
stand and whatever other tests print (`correlate_logged`).
-/

namespace TestTriage

/-! ## Where no mark begins -/

/-- No mark begins in a text that has some more text behind it. -/
def MarkFree (mark text behind : List Char) : Prop :=
  ∀ s, s ≠ [] → s <:+ text → ¬mark <+: s ++ behind

variable {m c : Char} {ms mark text text' behind : List Char}

theorem MarkFree.append (h : MarkFree mark text (text' ++ behind))
    (h' : MarkFree mark text' behind) : MarkFree mark (text ++ text') behind := by
  intro s hne hs
  obtain ⟨front, hsplit⟩ := hs
  rcases List.append_eq_append_iff.mp hsplit with ⟨cs, rfl, rfl⟩ | ⟨cs, rfl, rfl⟩
  · rcases cs with - | ⟨c, cs⟩
    · exact h' _ hne List.suffix_rfl
    · rw [List.append_assoc]
      exact h _ (List.cons_ne_nil c cs) ⟨front, rfl⟩
  · exact h' s hne ⟨cs, rfl⟩

theorem markFree_of_not_mem (h : m ∉ text) : MarkFree (m :: ms) text behind := by
  intro s hne hs hmark
  obtain ⟨c, cs, rfl⟩ := List.exists_cons_of_ne_nil hne
  obtain ⟨rfl, -⟩ := List.cons_prefix_cons.mp hmark
  exact h (hs.mem List.mem_cons_self)

/-- A mark that runs over the end of a text goes on with what stands behind it. -/
theorem markFree_of_no_occurrence (h : ¬(m :: ms) <:+: text) (hc : c ∉ ms) :
    MarkFree (m :: ms) text (c :: behind) := by
  intro s hne hs hmark
  obtain ⟨rest, hrest⟩ := hmark
  have hinside : ¬(m :: ms) <+: s := fun hs' => h (hs'.isInfix.trans hs.isInfix)
  rcases List.append_eq_append_iff.mp hrest with ⟨cs, rfl, -⟩ | ⟨cs, hsplit, hbehind⟩
  · exact hinside (List.prefix_append _ _)
  · cases cs with
    | nil => exact hinside (by rw [hsplit, List.append_nil])
    | cons b bs =>
        obtain ⟨d, ds, rfl⟩ := List.exists_cons_of_ne_nil hne
        obtain ⟨-, rfl⟩ := List.cons.inj hsplit
        obtain ⟨rfl, -⟩ := List.cons.inj hbehind
        exact hc (List.mem_append_right _ List.mem_cons_self)

theorem not_infix_of_not_mem {c : Char} (hmark : c ∈ mark) (h : c ∉ text) : ¬mark <:+: text :=
  fun hpart => h (hpart.mem hmark)

/-- A search runs over a text in which no mark begins. -/
theorem splitAtMark?_append (h : MarkFree mark text behind) :
    splitAtMark? mark (text ++ behind)
      = (splitAtMark? mark behind).map fun (before, rest) => (text ++ before, rest) := by
  induction text with
  | nil => exact Option.map_id'.symm
  | cons c cs ih =>
      have hfirst : ¬mark.isPrefixOf (c :: (cs ++ behind)) = true := by
        rw [List.isPrefixOf_iff_prefix]
        exact h (c :: cs) (List.cons_ne_nil c cs) List.suffix_rfl
      have hcs : MarkFree mark cs behind := fun s hne hs =>
        h s hne (hs.trans (List.suffix_cons c cs))
      rw [List.cons_append, splitAtMark?, if_neg hfirst, ih hcs]
      cases splitAtMark? mark behind <;> rfl

/-- The text is split at the mark behind it. -/
theorem splitAtMark?_markFree (h : MarkFree (m :: ms) text (m :: ms ++ behind)) :
    splitAtMark? (m :: ms) (text ++ (m :: ms ++ behind)) = some (text, behind) := by
  rw [splitAtMark?_append h, List.cons_append, splitAtMark?]
  simp

/-! ## The line of a log -/

/-- What a test logs: a message, behind the place in a file. -/
def logged (indent file : String) (line : Nat) (message : String) : String :=
  indent ++ file ++ ":" ++ toString line ++ ": " ++ message ++ "\n"

/-- May a text stand in front of the ending of a file's name? -/
structure IsStem (stem : String) : Prop where
  nonempty : stem ≠ ""
  /-- There is no white space at its ends. -/
  first : ∀ c ∈ stem.toList.head?, Text.isWhiteSpace c = false
  last : ∀ c ∈ stem.toList.getLast?, Text.isWhiteSpace c = false
  noPlace : ¬['.', 'g', 'o', ':'] <:+: stem.toList
  noMessage : ¬[':', ' '] <:+: stem.toList

/-- The characters of a line, parted at the marks. -/
theorem toList_logged (indent stem : String) (line : Nat) (message : String) :
    (logged indent (stem ++ ".go") line message).toList
      = indent.toList ++ stem.toList
        ++ (['.', 'g', 'o', ':'] ++ (Nat.toDigits 10 line ++ ([':', ' ']
          ++ (message.toList ++ ['\n'])))) := by
  simp [logged]

theorem not_mem_of_white {indent : List Char} (h : ∀ c ∈ indent, Text.isWhiteSpace c = true)
    {c : Char} (hc : Text.isWhiteSpace c = false) : c ∉ indent :=
  fun hmem => Bool.noConfusion ((h c hmem).symm.trans hc)

theorem not_mem_toDigits {c : Char} (hc : c.isDigit = false) (n : Nat) :
    c ∉ Nat.toDigits 10 n := fun hmem =>
  Bool.noConfusion ((Nat.isDigit_of_mem_toDigits (by decide) (by decide) hmem).symm.trans hc)

theorem trim_indented {indent stem : List Char} (h : ∀ c ∈ indent, Text.isWhiteSpace c = true)
    (hfirst : ∀ c ∈ stem.head?, Text.isWhiteSpace c = false)
    (hlast : ∀ c ∈ stem.getLast?, Text.isWhiteSpace c = false) :
    Text.trim (indent ++ stem) = stem := by
  have hdrop : ∀ {cs : List Char}, (∀ c ∈ cs.head?, Text.isWhiteSpace c = false) →
      cs.dropWhile Text.isWhiteSpace = cs := by
    intro cs hcs
    cases cs with
    | nil => rfl
    | cons c cs => exact List.dropWhile_cons_of_neg (by simp [hcs c rfl])
  rw [Text.trim, List.dropWhile_append_of_pos h, hdrop hfirst, Text.trimEnd, Text.dropEndWhile,
    hdrop (by rwa [List.head?_reverse]), List.reverse_reverse]

section Logged

variable {indent stem : String} (line : Nat) (message : String)
  (hindent : ∀ c ∈ indent.toList, Text.isWhiteSpace c = true) (hstem : IsStem stem)

include hindent hstem

/-- The file's name is read back. -/
theorem fileName?_logged :
    Correlator.fileName? {} (logged indent (stem ++ ".go") line message)
      = some (stem ++ ".go") := by
  have hplace : MarkFree ['.', 'g', 'o', ':'] (indent.toList ++ stem.toList)
      (['.', 'g', 'o', ':'] ++ (Nat.toDigits 10 line ++ ([':', ' ']
        ++ (message.toList ++ ['\n'])))) :=
    .append (markFree_of_not_mem (not_mem_of_white hindent (by decide)))
      (markFree_of_no_occurrence hstem.noPlace (by decide))
  have hmark : Correlator.mark {} = ['.', 'g', 'o', ':'] := by decide
  rw [Correlator.fileName?, hmark, toList_logged, splitAtMark?_markFree hplace]
  simp only [Option.map_some, trim_indented hindent hstem.first hstem.last]
  exact congrArg some (String.toList_inj.mp (by simp))

/-- The message is read back, but for line ends behind it. -/
theorem errorMessage?_logged :
    errorMessage? (logged indent (stem ++ ".go") line message)
      = some (String.ofList (message.toList.rdropWhile fun c => c == '\n' || c == '\r')) := by
  have hname : MarkFree [':', ' '] (indent.toList ++ stem.toList)
      (['.', 'g', 'o', ':'] ++ Nat.toDigits 10 line ++ ([':', ' ']
        ++ (message.toList ++ ['\n']))) :=
    .append (markFree_of_not_mem (not_mem_of_white hindent (by decide)))
      (markFree_of_no_occurrence hstem.noMessage (by decide))
  have hspace : ' ' ∉ ['.', 'g', 'o', ':'] ++ Nat.toDigits 10 line := by
    rw [List.mem_append, not_or]
    exact ⟨by decide, not_mem_toDigits (by decide) line⟩
  have hplace : MarkFree [':', ' '] (['.', 'g', 'o', ':'] ++ Nat.toDigits 10 line)
      ([':', ' '] ++ (message.toList ++ ['\n'])) :=
    markFree_of_no_occurrence (not_infix_of_not_mem (by decide) hspace) (by decide)
  have hparts : (logged indent (stem ++ ".go") line message).toList
      = indent.toList ++ stem.toList ++ (['.', 'g', 'o', ':'] ++ Nat.toDigits 10 line)
        ++ ([':', ' '] ++ (message.toList ++ ['\n'])) := by
    rw [toList_logged]
    simp only [List.append_assoc]
  rw [errorMessage?, hparts, splitAtMark?_markFree (hname.append hplace), Option.map_some]
  refine congrArg (fun cs => some (String.ofList cs)) ?_
  exact List.rdropWhile_concat_pos _ _ _ (by decide)

end Logged

/-! ## Tests that log -/

namespace Correlator

variable {before behind : List Event} {e : Event} {mark : List Char}

/-- Has a test printed neither mark yet? -/
def Untold (before : List Event) (test : String) : Prop :=
  ∀ e ∈ before, e.test = test →
    ¬['.', 'g', 'o', ':'] <:+: e.output.toList ∧ ¬[':', ' '] <:+: e.output.toList

theorem firstTelling_append
    (hbefore : ∀ e' ∈ before, e'.test = e.test → ¬mark <:+: e'.output.toList)
    (he : mark <:+: e.output.toList) :
    firstTelling mark e.test (before ++ e :: behind) = some e := by
  have hnone : before.find? (fun e' => e'.test = e.test ∧ mark <:+: e'.output.toList) = none := by
    rw [List.find?_eq_none]
    intro e' he'
    simpa using hbefore e' he'
  rw [firstTelling, List.find?_append, hnone, Option.none_or, List.find?_cons_of_pos]
  exact decide_eq_true ⟨rfl, he⟩

theorem infix_of_splitAtMark? {cs : List Char} {x : List Char × List Char}
    (h : splitAtMark? mark cs = some x) :
    mark <:+: cs ∧ textBefore mark cs = x.1 ∧ textBehind mark cs = x.2 := by
  rw [splitAtMark?_eq, Option.ite_none_right_eq_some] at h
  obtain ⟨hmark, heq⟩ := h
  obtain rfl := Option.some.inj heq
  exact ⟨hmark, rfl, rfl⟩

theorem rescanFile_of_first {c : Correlator} {file : String}
    (hbefore : ∀ e' ∈ before, e'.test = e.test → ¬c.mark <:+: e'.output.toList)
    (he : c.fileName? e.output = some file) :
    c.rescanFile (before ++ e :: behind) e.test = some file := by
  obtain ⟨x, hx, hfile⟩ := Option.map_eq_some_iff.mp he
  obtain ⟨hmark, hname, -⟩ := infix_of_splitAtMark? hx
  rw [rescanFile, firstTelling_append hbefore hmark, Option.map_some, hname]
  exact congrArg some hfile

theorem rescanMessage?_of_first {message : String}
    (hbefore : ∀ e' ∈ before, e'.test = e.test → ¬[':', ' '] <:+: e'.output.toList)
    (he : errorMessage? e.output = some message) :
    rescanMessage? (before ++ e :: behind) e.test = some message := by
  obtain ⟨x, hx, hmessage⟩ := Option.map_eq_some_iff.mp he
  obtain ⟨hmark, -, hbehind⟩ := infix_of_splitAtMark? hx
  rw [rescanMessage?, firstTelling_append hbefore hmark, Option.map_some, hbehind]
  exact congrArg some hmessage

section Attributed

variable {c : Correlator} {events : List Event} {test : String} {file : Path} {message : String}
  (h : ∀ marker : Event, marker.test = test →
    c.attributed? events marker = some (file, ⟨test, message⟩))

include h

/-- If all markers of a test tell the same, its failures are one for each marker. -/
theorem filter_rescan_of_attributed? :
    (c.rescan events).filter (·.2.fullName = test)
      = List.replicate (events.countP fun m => m.test = test ∧ m.isFailMarker)
          (file, ⟨test, message⟩) := by
  have hmarkers : ∀ m ∈ (events.filter (·.test = test)).filter Event.isFailMarker,
      c.attributed? events m = some (file, ⟨test, message⟩) := by
    intro m hm
    have hm := (List.mem_filter.mp (List.mem_filter.mp hm).1).2
    exact h m (of_decide_eq_true hm)
  have hcount : ((events.filter (·.test = test)).filter Event.isFailMarker).length
      = events.countP fun m => m.test = test ∧ m.isFailMarker := by
    rw [List.filter_filter, ← List.countP_eq_length_filter]
    refine List.countP_congr fun m _ => ?_
    simp [and_comm]
  rw [filter_rescan, List.filterMap_congr hmarkers, List.filterMap_eq_map', List.map_const',
    hcount]

theorem testsUnder_of_attributed? :
    testsUnder (c.correlate events) file test
      = List.replicate (events.countP fun m => m.test = test ∧ m.isFailMarker)
          ⟨test, message⟩ := by
  have hfile : ∀ n, (List.replicate n (file, FailingTest.mk test message)).filter (·.1.same file)
      = List.replicate n (file, ⟨test, message⟩) := fun n =>
    List.filter_eq_self.mpr fun x hx => by
      rw [List.eq_of_mem_replicate hx]
      exact Path.same_iff.mpr rfl
  rw [testsUnder_correlate, filter_rescan_of_attributed? h, hfile, List.map_replicate]

/-- No failure of the test is under another file. -/
theorem same_of_attributed? {slot : FileFailures} (hslot : slot ∈ (c.correlate events).slots)
    {x : FailingTest} (hx : x ∈ slot.tests) (hname : x.fullName = test) :
    slot.path.same file = true := by
  rw [FailureIndex.slots_eq_map (holds_correlate c events)] at hslot
  obtain ⟨y, -, rfl⟩ := List.mem_map.mp hslot
  obtain ⟨z, hz, rfl⟩ := List.mem_map.mp hx
  obtain ⟨hz, hsame⟩ := List.mem_filter.mp hz
  have hz : z ∈ (c.rescan events).filter (·.2.fullName = test) :=
    List.mem_filter.mpr ⟨hz, decide_eq_true hname⟩
  rw [filter_rescan_of_attributed? h] at hz
  rwa [List.eq_of_mem_replicate hz] at hsame

end Attributed

/-- **What a test logs first is recorded for all its fail markers.** If a test logs a
message before it prints anything with either mark, the index lists it under the file,
once for each of its fail markers before and behind, with the message but for line ends
at its end; and it lists it nowhere else. -/
theorem correlate_logged {indent stem : String} (line : Nat) (message : String)
    (hindent : ∀ c ∈ indent.toList, Text.isWhiteSpace c = true) (hstem : IsStem stem)
    (hbefore : Untold before e.test)
    (he : e.output = logged indent (stem ++ ".go") line message) :
    let events := before ++ e :: behind
    let index := correlate {} events
    let failure : FailingTest := ⟨e.test,
      String.ofList (message.toList.rdropWhile fun c => c == '\n' || c == '\r')⟩
    testsUnder index ⟨stem ++ ".go"⟩ e.test
        = List.replicate (events.countP fun m => m.test = e.test ∧ m.isFailMarker) failure
      ∧ ∀ slot ∈ index.slots, ∀ x ∈ slot.tests, x.fullName = e.test →
          slot.path.same ⟨stem ++ ".go"⟩ = true := by
  intro events index failure
  have hfile : rescanFile {} events e.test = some (stem ++ ".go") :=
    rescanFile_of_first (fun e' he' htest => (hbefore e' he' htest).1)
      (he ▸ fileName?_logged line message hindent hstem)
  have hmessage : rescanMessage? events e.test = some failure.error :=
    rescanMessage?_of_first (fun e' he' htest => (hbefore e' he' htest).2)
      (he ▸ errorMessage?_logged line message hindent hstem)
  have hmarker : ∀ marker : Event, marker.test = e.test →
      attributed? {} events marker = some (⟨stem ++ ".go"⟩, failure) := by
    intro marker htest
    rw [attributed?, htest, hfile, hmessage]
    rfl
  exact ⟨testsUnder_of_attributed? hmarker,
    fun slot hslot x hx hname => same_of_attributed? hmarker hslot hx hname⟩

/-- What a test logs in a file with the mark's letters in its name. -/
def loggedByTestA : Event :=
  ⟨"output", "TestA", logged "    " "a.go_test.go" 12 "see c.go:3: x\r\n", "pkg"⟩

/-- Two fail markers of the test, one on either side, and an output of another test. -/
def markersAround : List Event :=
  [⟨"fail", "TestA", "", "pkg"⟩, ⟨"output", "TestB", "b_test.go:9: worse\n", "pkg"⟩,
    loggedByTestA, ⟨"fail", "TestA", "", "pkg"⟩]

theorem correlate_logged_markersAround :
    IsStem "a.go_test" ∧ Untold (markersAround.take 2) "TestA"
      ∧ testsUnder (correlate {} markersAround) ⟨"a.go_test.go"⟩ "TestA"
        = [⟨"TestA", "see c.go:3: x"⟩, ⟨"TestA", "see c.go:3: x"⟩] := by
  have hindent : ∀ c ∈ "    ".toList, Text.isWhiteSpace c = true := by
    have hblanks : "    ".toList = List.replicate 4 ' ' := by decide
    rw [hblanks]
    intro c hc
    rw [List.eq_of_mem_replicate hc]
    decide
  have hstem : IsStem "a.go_test" := by
    have hfirst : "a.go_test".toList.head? = some 'a' := by decide
    have hlast : "a.go_test".toList.getLast? = some 't' := by decide
    refine ⟨by decide, ?_, ?_, by decide, by decide⟩
    · rw [hfirst]
      rintro _ ⟨⟩
      decide
    · rw [hlast]
      rintro _ ⟨⟩
      decide
  have hbefore : Untold (markersAround.take 2) loggedByTestA.test := by
    simp only [Untold, markersAround, List.take_succ_cons, List.take_zero, List.forall_mem_cons]
    decide
  have h := @correlate_logged _ (markersAround.drop 3) _ _ _ 12 "see c.go:3: x\r\n" hindent hstem
    hbefore rfl
  exact ⟨hstem, hbefore, h.1⟩

end Correlator

end TestTriage
