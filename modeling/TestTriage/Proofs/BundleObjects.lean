import TestTriage.Proofs.BundleLines
import TestTriage.Proofs.Json.Outline

/-!
# Which objects are bundles

An object is taken apart into keys and the texts of their values
(`ObjectText`), and these alone settle what it is read as. Each field has to
stand there once, with a value of its type, or to be missing where it may
be (`Describes`). Values of other keys may be of any kind and shape.

That the members are what the reader has read follows from outlines being
taken apart in one way only: the reader of a field reads the texts of its
type and no others (`Exact`), so it has read the member's own text. Over the
members goes one invariant, in both directions at once: what has been
gathered fits together with the members that are left to make the bundle
(`Fits`). The main theorem is `ofJson_object`.
-/

namespace TestTriage.Bundle

open Text (Bytes utf8)
open Json (Read code skipSpace Takes Ends IsSpacing StringText Outline Exact Row Keyed Steps
  ColonText ObjectText)

/-! ## Values of fields -/

/-- A file that may be absent: `null`, or its path as a string. -/
inductive FileText : Option Path → Bytes → Prop where
  | null : FileText none (['n', 'u', 'l', 'l'].map code)
  | path {p : Path} {t : Bytes} (h : StringText p.text t) : FileText (some p) t

/-- A list of strings. -/
inductive TextsText : List String → Bytes → Prop where
  | list {ss : List String} {r : Bytes} (h : Row ']' StringText true ss r) :
      TextsText ss (code '[' :: r)

theorem outline_stringText {s : String} {t : Bytes} (h : StringText s t) : Outline .value t :=
  .token h.token

theorem noNumeral_stringText {s : String} {t : Bytes} (h : StringText s t) : ¬Json.Numeral t := by
  obtain ⟨-⟩ := h
  exact Json.not_numeral (by decide) (by decide)

theorem exact_stringValue (expected : String) : Exact (stringValue expected) StringText where
  spacing hgap bs := by rw [stringValue, stringValue, Json.skipSpace_spacing hgap]
  takes := takes_stringValue expected
  exists_text {bs s rest} h := by
    rw [stringValue] at h
    split at h
    · next b behind hspace =>
      split at h
      · next hquote =>
        obtain ⟨gap, hgap, rfl⟩ := Json.exists_spacing_cons hspace
        obtain ⟨t, ht, rfl⟩ := Json.exists_of_string h
        exact ⟨gap, _, hgap, .quotes ht, by simp [hquote]⟩
      · exact absurd h Json.mismatch_ne_ok
    · cases h
  outline := outline_stringText
  noNumeral := noNumeral_stringText

theorem exact_pathValue : Exact pathValue FileText where
  spacing hgap bs := by rw [pathValue, pathValue, Json.skipSpace_spacing hgap]
  takes {p t} h := by
    cases h with
    | null => exact ⟨⟨_, _, rfl, by decide, by decide⟩, fun rest _ => rfl⟩
    | path h => exact takes_pathValue h
  exists_text {bs p rest} h := by
    rw [pathValue] at h
    split at h
    · next b behind hspace =>
      obtain ⟨gap, hgap, rfl⟩ := Json.exists_spacing_cons hspace
      split at h
      · next hn =>
        obtain ⟨after, hword, ⟨⟩⟩ := bind_eq_ok.mp h
        rw [Json.eq_of_word hword, hn]
        exact ⟨gap, _, hgap, .null, by simp⟩
      · obtain ⟨⟨s, after⟩, hs, ⟨⟩⟩ := bind_eq_ok.mp h
        obtain ⟨gap', t, hgap', ht, heq⟩ := (exact_stringValue "path string").exists_text hs
        rw [heq]
        exact ⟨gap ++ gap', t, Json.isSpacing_append.mpr ⟨hgap, hgap'⟩, .path ht, by simp⟩
    · cases h
  outline {p t} h := by
    cases h with
    | null => exact .token (.word (by decide))
    | path h => exact outline_stringText h
  noNumeral {p t} h := by
    cases h with
    | null => exact Json.not_numeral (by decide) (by decide)
    | path h => exact noNumeral_stringText h

theorem exact_stringsValue : Exact stringsValue TextsText where
  spacing hgap bs := by rw [stringsValue, stringsValue, Json.skipSpace_spacing hgap]
  takes {ss t} h := by
    obtain @⟨r, h⟩ := h
    refine ⟨⟨_, _, rfl, by decide, by decide⟩, fun rest _ => ?_⟩
    have hlimit : r.length < (r ++ rest).length + 1 := by
      rw [List.length_append]
      omega
    rw [List.cons_append, stringsValue, Json.skipSpace_cons (by decide)]
    exact Json.items_row (fun _ _ => takes_stringValue "a string") h rest hlimit
  exists_text {bs ss rest} h := by
    rw [stringsValue] at h
    split at h
    · next b behind hspace =>
      split at h
      · next hopen =>
        obtain ⟨gap, hgap, rfl⟩ := Json.exists_spacing_cons hspace
        obtain ⟨r, hr, rfl⟩ := Json.exists_row_of_items
          (fun _ _ _ => (exact_stringValue "a string").exists_text) h
        exact ⟨gap, _, hgap, .list hr, by simp [hopen]⟩
      · exact absurd h Json.mismatch_ne_ok
    · cases h
  outline {ss t} h := by
    obtain ⟨h⟩ := h
    have hrow : Outline (.row .list true) _ := h.outline rfl fun s t ht =>
      ⟨[], [], t, .list, Json.isSpacing_nil, outline_stringText ht, rfl⟩
    exact .opened hrow
  noNumeral {ss t} h := by
    obtain ⟨-⟩ := h
    exact Json.not_numeral (by decide) (by decide)

/-! ## Fields of a bundle -/

namespace Field

/-- The fields that must not be missing. -/
def required : List Field := [.testSources, .dependencySources, .testError]

/-- Is the value of the type of the field? -/
def Typed (f : Field) (t : Bytes) : Prop :=
  match f with
  | .testName | .fullTestName | .testError => ∃ s, StringText s t
  | .testFile | .implementationFile => ∃ p, FileText p t
  | .testSources | .dependencySources => ∃ ss, TextsText ss t

/-- Is the value the one that the bundle has in the field? -/
def ValueText (f : Field) (b : Bundle) (t : Bytes) : Prop :=
  match f with
  | .testName => StringText b.testName t
  | .fullTestName => StringText b.fullTestName t
  | .testFile => FileText b.testFile t
  | .implementationFile => FileText b.implementationFile t
  | .testSources => TextsText b.testSources t
  | .dependencySources => TextsText b.dependencySources t
  | .testError => StringText b.testError t

/-- Does the bundle have in the field what stands for a missing one? -/
def LeftOut (f : Field) (b : Bundle) : Prop :=
  match f with
  | .testName => b.testName = ""
  | .fullTestName => b.fullTestName = ""
  | .testFile => b.testFile = none
  | .implementationFile => b.implementationFile = none
  | .testSources | .dependencySources | .testError => False

/-- Only for the files `null` is a value. -/
theorem typed_null (f : Field) :
    f.Typed (['n', 'u', 'l', 'l'].map code) ↔ f = .testFile ∨ f = .implementationFile := by
  have hstring : ¬∃ s, StringText s (['n', 'u', 'l', 'l'].map code) := by
    rintro ⟨s, h⟩
    generalize ht : ['n', 'u', 'l', 'l'].map code = t at h
    obtain ⟨-⟩ := h
    exact absurd (List.cons.inj ht).1 (by decide)
  have hstrings : ¬∃ ss, TextsText ss (['n', 'u', 'l', 'l'].map code) := by
    rintro ⟨ss, h⟩
    generalize ht : ['n', 'u', 'l', 'l'].map code = t at h
    obtain ⟨-⟩ := h
    exact absurd (List.cons.inj ht).1 (by decide)
  cases f with
  | testFile => exact iff_of_true ⟨none, .null⟩ (.inl rfl)
  | implementationFile => exact iff_of_true ⟨none, .null⟩ (.inr rfl)
  | testName | fullTestName | testError => exact iff_of_false hstring (by decide)
  | testSources | dependencySources => exact iff_of_false hstrings (by decide)

theorem eq_of_ofKey? {key : String} {f : Field} (h : ofKey? key = some f) : key = f.key := by
  have hkey := List.find?_some h
  exact (beq_iff_eq.mp hkey).symm

end Field

/-- The texts of the values that stand in an object for a field. -/
def valuesAt (ms : List (String × Bytes)) (f : Field) : List Bytes :=
  (ms.filter fun m => m.1 == f.key).map (·.2)

/-- The members make the bundle: each field is there once, with its value in the
bundle, or it is missing and the bundle has nothing in it. -/
def Describes (ms : List (String × Bytes)) (b : Bundle) : Prop :=
  ∀ f, (∃ t, valuesAt ms f = [t] ∧ f.ValueText b t) ∨ (valuesAt ms f = [] ∧ f.LeftOut b)

/-! ## One member -/

section Member

variable {f : Field} {g g' : Gathered} {gap t bs rest rest' : Bytes}

/-- How the values of a field are read and put with the others. -/
structure FieldReader (f : Field) where
  α : Type
  read : Read α
  written : α → Bytes → Prop
  exact : Exact read written
  get : Bundle → α
  surjective : Function.Surjective get
  put : Gathered → α → Gathered
  value_eq : ∀ g bs, f.value g bs = (read bs).map fun (x, rest) => (put g x, rest)
  fill_eq : ∀ b g, b.fill g f = put g (get b)
  valueText_iff : ∀ b t, f.ValueText b t ↔ written (get b) t

/-- A bundle with nothing in it. -/
def blank : Bundle := ⟨"", "", none, none, [], [], ""⟩

def Field.reader : (f : Field) → FieldReader f
  | .testName => ⟨_, _, _, exact_stringValue "a string", (·.testName),
      fun s => ⟨{ blank with testName := s }, rfl⟩, fun g s => { g with testName := some s },
      fun _ _ => rfl, fun _ _ => rfl, fun _ _ => .rfl⟩
  | .fullTestName => ⟨_, _, _, exact_stringValue "a string", (·.fullTestName),
      fun s => ⟨{ blank with fullTestName := s }, rfl⟩,
      fun g s => { g with fullTestName := some s },
      fun _ _ => rfl, fun _ _ => rfl, fun _ _ => .rfl⟩
  | .testFile => ⟨_, _, _, exact_pathValue, (·.testFile),
      fun p => ⟨{ blank with testFile := p }, rfl⟩, fun g p => { g with testFile := some p },
      fun _ _ => rfl, fun _ _ => rfl, fun _ _ => .rfl⟩
  | .implementationFile => ⟨_, _, _, exact_pathValue, (·.implementationFile),
      fun p => ⟨{ blank with implementationFile := p }, rfl⟩,
      fun g p => { g with implementationFile := some p },
      fun _ _ => rfl, fun _ _ => rfl, fun _ _ => .rfl⟩
  | .testSources => ⟨_, _, _, exact_stringsValue, (·.testSources),
      fun ss => ⟨{ blank with testSources := ss }, rfl⟩,
      fun g ss => { g with testSources := some ss },
      fun _ _ => rfl, fun _ _ => rfl, fun _ _ => .rfl⟩
  | .dependencySources => ⟨_, _, _, exact_stringsValue, (·.dependencySources),
      fun ss => ⟨{ blank with dependencySources := ss }, rfl⟩,
      fun g ss => { g with dependencySources := some ss },
      fun _ _ => rfl, fun _ _ => rfl, fun _ _ => .rfl⟩
  | .testError => ⟨_, _, _, exact_stringValue "a string", (·.testError),
      fun s => ⟨{ blank with testError := s }, rfl⟩, fun g s => { g with testError := some s },
      fun _ _ => rfl, fun _ _ => rfl, fun _ _ => .rfl⟩

/-- The value of a field is read just if it is one of the field, and put with the others. -/
theorem value_eq_ok (ht : Outline .value t) (hgap : IsSpacing gap) (hrest : Ends rest) :
    f.value g (gap ++ (t ++ rest)) = .ok (g', rest')
      ↔ (∃ b, f.ValueText b t ∧ g' = b.fill g f) ∧ rest' = rest := by
  rw [f.reader.value_eq, map_eq_ok]
  constructor
  · rintro ⟨⟨x, _⟩, hread, ⟨⟩⟩
    obtain ⟨hx, rfl⟩ := (f.reader.exact.read_eq_ok ht hgap hrest).mp hread
    obtain ⟨b, rfl⟩ := f.reader.surjective x
    exact ⟨⟨b, (f.reader.valueText_iff b t).mpr hx, (f.reader.fill_eq b g).symm⟩, rfl⟩
  · rintro ⟨⟨b, hb, rfl⟩, rfl⟩
    have hx := (f.reader.valueText_iff b t).mp hb
    rw [f.reader.fill_eq]
    exact ⟨(f.reader.get b, rest'), (f.reader.exact.read_eq_ok ht hgap hrest).mpr ⟨hx, rfl⟩, rfl⟩

theorem exists_of_value (h : f.value g bs = .ok (g', rest)) :
    ∃ gap t, IsSpacing gap ∧ Outline .value t ∧ bs = gap ++ t ++ rest := by
  rw [f.reader.value_eq, map_eq_ok] at h
  obtain ⟨⟨x, _⟩, hx, ⟨⟩⟩ := h
  obtain ⟨gap, t, hgap, ht, hbs⟩ := f.reader.exact.exists_text hx
  exact ⟨gap, t, hgap, f.reader.exact.outline ht, hbs⟩

theorem typed_iff : f.Typed t ↔ ∃ b, f.ValueText b t := by
  have hreader : f.Typed t ↔ ∃ x, f.reader.written x t := by cases f <;> rfl
  rw [hreader, f.reader.surjective.exists]
  exact exists_congr fun b => (f.reader.valueText_iff b t).symm

/-- What a member adds to what has been gathered: a field that is not there yet, or
nothing. -/
def Adds (g : Gathered) (m : String × Bytes) (g' : Gathered) : Prop :=
  match Field.ofKey? m.1 with
  | none => g' = g
  | some f => g.has f = false ∧ ∃ b, f.ValueText b m.2 ∧ g' = b.fill g f

/-- A member is read just if it adds something or nothing, and never twice the same field. -/
theorem member_eq_ok {key : String} {v : Bytes} (hv : ColonText v t) (hrest : Ends rest) :
    member g key (t ++ rest) = .ok (g', rest') ↔ Adds g (key, v) g' ∧ rest' = rest := by
  obtain ⟨hgap, hbefore, hv⟩ := hv
  simp only [List.append_assoc, List.cons_append]
  rw [member, Adds]
  cases hkey : Field.ofKey? key with
  | none =>
      simp only [Json.colon_append hgap, Json.skip_outline hbefore hv fun _ => hrest, bind,
        Except.bind]
      constructor
      · rintro ⟨⟩
        exact ⟨rfl, rfl⟩
      · rintro ⟨rfl, rfl⟩
        rfl
  | some f =>
      cases hhas : g.has f with
      | true =>
          -- the field is there already
          simp only [hhas, if_true, Bool.true_eq_false, false_and, iff_false]
          intro h
          split at h <;> cases h
      | false =>
          simp only [hhas, Bool.false_eq_true, if_false, Json.colon_append hgap, bind, Except.bind,
            true_and]
          exact value_eq_ok hv hbefore hrest

theorem exists_of_member {key : String} (h : member g key bs = .ok (g', rest)) :
    ∃ v t, ColonText v t ∧ bs = t ++ rest := by
  rw [member] at h
  split at h
  · obtain ⟨after, hcolon, h⟩ := bind_eq_ok.mp h
    obtain ⟨_, hskip, ⟨⟩⟩ := bind_eq_ok.mp h
    obtain ⟨gap, hgap, rfl⟩ := Json.exists_of_colon hcolon
    obtain ⟨before, v, hbefore, hv, rfl⟩ := Json.exists_outline_of_skip hskip
    exact ⟨v, _, .value hgap hbefore hv, by simp⟩
  · split at h
    · split at h <;> cases h
    · obtain ⟨after, hcolon, hvalue⟩ := bind_eq_ok.mp h
      obtain ⟨gap, hgap, rfl⟩ := Json.exists_of_colon hcolon
      obtain ⟨before, v, hbefore, hv, rfl⟩ := exists_of_value hvalue
      exact ⟨v, _, .value hgap hbefore hv, by simp⟩

end Member

/-! ## All members -/

/-- Has the field been read with the value that the bundle has in it? -/
def Gathered.Holds (g : Gathered) (f : Field) (b : Bundle) : Prop :=
  match f with
  | .testName => g.testName = some b.testName
  | .fullTestName => g.fullTestName = some b.fullTestName
  | .testFile => g.testFile = some b.testFile
  | .implementationFile => g.implementationFile = some b.implementationFile
  | .testSources => g.testSources = some b.testSources
  | .dependencySources => g.dependencySources = some b.dependencySources
  | .testError => g.testError = some b.testError

section Fits

variable {g : Gathered} {m : String × Bytes} {ms : List (String × Bytes)} {b b' : Bundle}
  {f f' : Field}

theorem has_of_holds (h : g.Holds f b) : g.has f = true := by
  cases f <;> simp [Gathered.has, show _ = _ from h]

theorem holds_fill : (b.fill g f).Holds f b' ↔ f.reader.get b = f.reader.get b' := by
  cases f <;> exact Option.some_inj

theorem holds_fill_of_ne (h : f ≠ f') : (b.fill g f).Holds f' b' ↔ g.Holds f' b' := by
  cases f <;> cases f' <;> first | exact .rfl | exact absurd rfl h

theorem has_fill_self : (b.fill g f).has f = true := by
  rw [has_fill, decide_eq_true rfl, Bool.true_or]

theorem has_fill_of_ne (h : f ≠ f') : (b.fill g f).has f' = g.has f' := by
  rw [has_fill, decide_eq_false h, Bool.false_or]

theorem getD_eq_iff {α : Type} {x : Option α} {y missing : α} :
    x.getD missing = y ↔ x = some y ∨ (x.isSome = false ∧ y = missing) := by
  cases x with
  | none => simp [eq_comm]
  | some => simp

theorem join_eq_getD {α : Type} (x : Option (Option α)) : x.join = x.getD none := by
  cases x <;> rfl

/-- The bundle has what has been read, and stands for what is missing where nothing has. -/
theorem bundle_eq_ok :
    g.bundle = .ok b ↔ ∀ f, g.Holds f b ∨ (g.has f = false ∧ f.LeftOut b) := by
  obtain ⟨testName, fullTestName, testFile, implementationFile, testSources, dependencySources,
    testError⟩ := g
  constructor
  · intro h f
    rw [Gathered.bundle] at h
    split at h
    · cases h
    · cases h
    · cases h
    · next hsources hdependencies herror =>
      cases h
      cases f with
      | testSources => exact .inl hsources
      | dependencySources => exact .inl hdependencies
      | testError => exact .inl herror
      | testName | fullTestName => exact getD_eq_iff.mp rfl
      | testFile | implementationFile => exact getD_eq_iff.mp (join_eq_getD _).symm
  · intro h
    obtain rfl : testSources = some b.testSources := (h .testSources).resolve_right (·.2)
    obtain rfl : dependencySources = some b.dependencySources :=
      (h .dependencySources).resolve_right (·.2)
    obtain rfl : testError = some b.testError := (h .testError).resolve_right (·.2)
    have hname := getD_eq_iff.mpr (h .testName)
    have hfull := getD_eq_iff.mpr (h .fullTestName)
    have htest := (join_eq_getD testFile).trans (getD_eq_iff.mpr (h .testFile))
    have himplementation :=
      (join_eq_getD implementationFile).trans (getD_eq_iff.mpr (h .implementationFile))
    simp only [Gathered.bundle, hname, hfull, htest, himplementation]

theorem valuesAt_cons (h : m.1 = f.key) : valuesAt (m :: ms) f = m.2 :: valuesAt ms f := by
  simp [valuesAt, h]

theorem valuesAt_cons_of_ne (h : m.1 ≠ f.key) : valuesAt (m :: ms) f = valuesAt ms f := by
  simp [valuesAt, h]

/-- The members that are left make the bundle together with what has been gathered. -/
def Fits (g : Gathered) (ms : List (String × Bytes)) (b : Bundle) : Prop :=
  ∀ f, (g.Holds f b ∧ valuesAt ms f = [])
    ∨ (g.has f = false ∧ ((∃ t, valuesAt ms f = [t] ∧ f.ValueText b t)
      ∨ (valuesAt ms f = [] ∧ f.LeftOut b)))

theorem fits_cons_of_unknown (hkey : Field.ofKey? m.1 = none) :
    Fits g (m :: ms) b ↔ Fits g ms b := by
  have hne : ∀ f : Field, m.1 ≠ f.key := by
    intro f h
    rw [h, Field.ofKey?_key] at hkey
    cases hkey
  simp only [Fits, valuesAt_cons_of_ne (hne _)]

/-- A field fits just if it is not there yet and is nowhere else. -/
theorem fits_cons_of_known (hkey : Field.ofKey? m.1 = some f) :
    Fits g (m :: ms) b ↔ g.has f = false ∧ f.ValueText b m.2 ∧ Fits (b.fill g f) ms b := by
  have hm := Field.eq_of_ofKey? hkey
  have hne : ∀ f', f ≠ f' → m.1 ≠ f'.key := by
    intro f' hf h
    rw [h, Field.ofKey?_key] at hkey
    exact hf (Option.some.inj hkey).symm
  constructor
  · intro hfits
    have hf := hfits f
    rw [valuesAt_cons hm] at hf
    obtain ⟨-, hnone⟩ | ⟨hnew, ⟨t, hone, ht⟩ | ⟨hnone, -⟩⟩ := hf
    · cases hnone
    · obtain ⟨rfl, hrest⟩ := List.cons.inj hone
      refine ⟨hnew, ht, fun f' => ?_⟩
      by_cases hf : f = f'
      · subst hf
        exact .inl ⟨holds_fill.mpr rfl, hrest⟩
      · rw [holds_fill_of_ne hf, has_fill_of_ne hf, ← valuesAt_cons_of_ne (hne f' hf)]
        exact hfits f'
    · cases hnone
  · rintro ⟨hnew, ht, hfits⟩ f'
    by_cases hf : f = f'
    · subst hf
      obtain ⟨-, hrest⟩ | ⟨hhas, -⟩ := hfits f
      · exact .inr ⟨hnew, .inl ⟨m.2, by rw [valuesAt_cons hm, hrest], ht⟩⟩
      · rw [has_fill_self] at hhas
        cases hhas
    · have hfits' := hfits f'
      rwa [holds_fill_of_ne hf, has_fill_of_ne hf, ← valuesAt_cons_of_ne (hne f' hf)] at hfits'

/-- A value that fits is the bundle's own, whichever bundle it was read for. -/
theorem valueText_of_fits {b₀ : Bundle} {t : Bytes} (ht : f.ValueText b₀ t)
    (hfits : Fits (b₀.fill g f) ms b) : f.ValueText b t ∧ b₀.fill g f = b.fill g f := by
  obtain ⟨hholds, -⟩ | ⟨hhas, -⟩ := hfits f
  · have hget := holds_fill.mp hholds
    rw [f.reader.valueText_iff, f.reader.fill_eq, f.reader.fill_eq, ← hget]
    exact ⟨(f.reader.valueText_iff b₀ t).mp ht, rfl⟩
  · rw [has_fill_self] at hhas
    cases hhas

theorem fits_cons : Fits g (m :: ms) b ↔ ∃ g', Adds g m g' ∧ Fits g' ms b := by
  rw [exists_congr fun g' => and_congr_left' (by rw [Adds])]
  cases hkey : Field.ofKey? m.1 with
  | none => simp only [exists_eq_left, fits_cons_of_unknown hkey]
  | some f =>
      rw [fits_cons_of_known hkey]
      constructor
      · rintro ⟨hnew, ht, hfits⟩
        exact ⟨b.fill g f, ⟨hnew, b, ht, rfl⟩, hfits⟩
      · rintro ⟨_, ⟨hnew, b₀, ht, rfl⟩, hfits⟩
        obtain ⟨ht, hfill⟩ := valueText_of_fits ht hfits
        exact ⟨hnew, ht, hfill ▸ hfits⟩

/-- The bundle is made from the members one by one. -/
theorem fits_iff : Fits g ms b ↔ ∃ g', Steps Adds g ms g' ∧ g'.bundle = .ok b := by
  induction ms generalizing g with
  | nil =>
      have hfits : Fits g [] b ↔ g.bundle = .ok b := by
        rw [bundle_eq_ok]
        refine forall_congr' fun f => ?_
        have hnone : valuesAt [] f = [] := rfl
        simp only [hnone, and_true, List.nil_eq, List.cons_ne_nil, false_and, exists_false,
          false_or, true_and]
      rw [hfits]
      constructor
      · exact fun h => ⟨g, .nil, h⟩
      · rintro ⟨_, ⟨⟩, h⟩
        exact h
  | cons m ms ih =>
      rw [fits_cons, exists_congr fun g' => and_congr_right fun _ => ih]
      constructor
      · rintro ⟨g₁, hadds, g', hsteps, h⟩
        exact ⟨g', .cons hadds hsteps, h⟩
      · rintro ⟨g', hsteps, h⟩
        cases hsteps with
        | cons hadds hsteps => exact ⟨_, hadds, g', hsteps, h⟩

theorem fits_empty : Fits {} ms b ↔ Describes ms b := by
  refine forall_congr' fun f => ?_
  have hnone : ¬({} : Gathered).Holds f b := fun h =>
    Bool.false_ne_true ((has_empty f).symm.trans (has_of_holds h))
  simp only [hnone, false_and, false_or, has_empty, true_and]

end Fits

/-! ## Whole texts -/

section Objects

variable {text : Bytes} {ms ms' extra : List (String × Bytes)} {b b' : Bundle} {f : Field}

/-- What stands behind an opening brace is gathered from members, and made a bundle. -/
theorem ofValue_brace {gap rest rest' : Bytes} (hgap : IsSpacing gap) :
    ofValue (gap ++ code '\x7b' :: rest) = .ok (b, rest')
      ↔ ∃ g, Json.members member (rest.length + 1) true {} rest = .ok (g, rest')
          ∧ g.bundle = .ok b := by
  rw [ofValue, Json.skipSpace_spacing hgap, Json.skipSpace_cons (by decide)]
  simp only [if_true, bind_eq_ok]
  constructor
  · rintro ⟨⟨g, behind⟩, hmembers, h⟩
    cases hbundle : g.bundle with
    | error f =>
        simp only [hbundle] at h
        cases h
    | ok b' =>
        simp only [hbundle] at h
        cases h
        exact ⟨g, hmembers, hbundle⟩
  · rintro ⟨g, hmembers, hbundle⟩
    refine ⟨(g, rest'), hmembers, ?_⟩
    simp only [hbundle]
    rfl

/-- An object makes the bundle that its members describe. -/
theorem ofJson_eq_ok (h : ObjectText ms text) : ofJson text = .ok b ↔ Describes ms b := by
  cases h with
  | @object before r behind hbefore hr hbehind =>
      have hlimit : r.length < (r ++ behind).length + 1 := by
        rw [List.length_append]
        omega
      have hread : ∀ g rest,
          Json.members member ((r ++ behind).length + 1) true {} (r ++ behind) = .ok (g, rest)
            ↔ Steps Adds {} ms g ∧ rest = behind := by
        intro g rest
        refine Json.members_row ?_ hr hlimit
        exact fun hv hrest => member_eq_ok hv hrest
      rw [ofJson, Json.whole_eq_ok, ← fits_empty, fits_iff]
      constructor
      · rintro ⟨rest, hvalue, -⟩
        obtain ⟨g, hmembers, hb⟩ := (ofValue_brace hbefore).mp hvalue
        exact ⟨g, ((hread g rest).mp hmembers).1, hb⟩
      · rintro ⟨g, hsteps, hb⟩
        exact ⟨behind, (ofValue_brace hbefore).mpr ⟨g, (hread g behind).mpr ⟨hsteps, rfl⟩, hb⟩,
          hbehind⟩

/-- Only an object is read behind an opening brace. -/
theorem exists_objectText (h : ofJson text = .ok b)
    (hopens : ∃ rest, skipSpace text = code '\x7b' :: rest) : ∃ ms, ObjectText ms text := by
  obtain ⟨rest, hrest⟩ := hopens
  obtain ⟨gap, hgap, rfl⟩ := Json.exists_spacing_cons hrest
  obtain ⟨behind, hread, hbehind⟩ := Json.whole_eq_ok.mp h
  obtain ⟨g, hmembers, -⟩ := (ofValue_brace hgap).mp hread
  obtain ⟨ms, r, hr, rfl⟩ := Json.exists_row_of_members exists_of_member hmembers
  exact ⟨ms, .object hgap hr hbehind⟩

theorem mem_valuesAt {t : Bytes} : t ∈ valuesAt ms f ↔ (f.key, t) ∈ ms := by
  simp [valuesAt]

theorem length_valuesAt : (valuesAt ms f).length = (ms.map (·.1)).count f.key := by
  rw [valuesAt, List.length_map, List.count, List.countP_map, List.countP_eq_length_filter]
  rfl

/-- The bundle that has in each field what the bundle chosen for the field has in it. -/
def collect (c : Field → Bundle) : Bundle where
  testName := (c .testName).testName
  fullTestName := (c .fullTestName).fullTestName
  testFile := (c .testFile).testFile
  implementationFile := (c .implementationFile).implementationFile
  testSources := (c .testSources).testSources
  dependencySources := (c .dependencySources).dependencySources
  testError := (c .testError).testError

theorem leftOut_blank (h : f ∉ Field.required) : f.LeftOut blank := by
  cases f <;> first | rfl | exact absurd (by decide) h

theorem Describes.mem_of_required (h : Describes ms b) (hf : f ∈ Field.required) :
    f.key ∈ ms.map (·.1) := by
  obtain ⟨t, hone, -⟩ | ⟨-, hout⟩ := h f
  · have hmem := mem_valuesAt.mp (hone ▸ List.mem_singleton_self t)
    exact List.mem_map.mpr ⟨_, hmem, rfl⟩
  · simp only [Field.required, List.mem_cons, List.not_mem_nil, or_false] at hf
    obtain rfl | rfl | rfl := hf <;> cases hout

theorem Describes.count_le_one (h : Describes ms b) (f : Field) :
    (ms.map (·.1)).count f.key ≤ 1 := by
  rw [← length_valuesAt]
  obtain ⟨t, hone, -⟩ | ⟨hnone, -⟩ := h f
  · rw [hone]
    exact Nat.le_refl 1
  · rw [hnone]
    exact Nat.zero_le 1

theorem Describes.typed (h : Describes ms b) {t : Bytes} (hmem : (f.key, t) ∈ ms) : f.Typed t := by
  have hvalue := mem_valuesAt.mpr hmem
  obtain ⟨t', hone, ht'⟩ | ⟨hnone, -⟩ := h f
  · rw [hone, List.mem_singleton] at hvalue
    exact typed_iff.mpr ⟨b, hvalue ▸ ht'⟩
  · rw [hnone] at hvalue
    cases hvalue

/-- For one field some bundle is described. -/
theorem exists_valueText_or_leftOut (hrequired : f ∈ Field.required → f.key ∈ ms.map (·.1))
    (honce : (ms.map (·.1)).count f.key ≤ 1) (htyped : ∀ t, (f.key, t) ∈ ms → f.Typed t) :
    ∃ b, (∃ t, valuesAt ms f = [t] ∧ f.ValueText b t) ∨ (valuesAt ms f = [] ∧ f.LeftOut b) := by
  rw [← length_valuesAt] at honce
  cases hvalues : valuesAt ms f with
  | nil =>
      refine ⟨blank, .inr ⟨rfl, leftOut_blank fun hf => ?_⟩⟩
      obtain ⟨⟨key, t⟩, hmem, hkey⟩ := List.mem_map.mp (hrequired hf)
      obtain rfl : key = f.key := hkey
      have hvalue := mem_valuesAt.mpr hmem
      rw [hvalues] at hvalue
      cases hvalue
  | cons t ts =>
      rw [hvalues, List.length_cons] at honce
      obtain rfl : ts = [] := List.length_eq_zero_iff.mp (by omega)
      have hmem : (f.key, t) ∈ ms := mem_valuesAt.mp (by rw [hvalues]; exact List.mem_cons_self)
      obtain ⟨b, hb⟩ := typed_iff.mp (htyped t hmem)
      exact ⟨b, .inl ⟨t, rfl, hb⟩⟩

/-- Some bundle is described, unless a field is missing, repeated or of another type. -/
theorem exists_describes_iff :
    (∃ b, Describes ms b) ↔ (∀ f ∈ Field.required, f.key ∈ ms.map (·.1))
      ∧ (∀ f : Field, (ms.map (·.1)).count f.key ≤ 1)
      ∧ ∀ (f : Field) (t : Bytes), (f.key, t) ∈ ms → f.Typed t := by
  constructor
  · rintro ⟨b, h⟩
    exact ⟨fun f hf => h.mem_of_required hf, h.count_le_one, fun f t hmem => h.typed hmem⟩
  · rintro ⟨hrequired, honce, htyped⟩
    have hfield := fun f => exists_valueText_or_leftOut (hrequired f) (honce f) (htyped f)
    -- no field asks anything of the other fields of its bundle
    choose c hc using hfield
    refine ⟨collect c, fun f => ?_⟩
    have hf := hc f
    cases f <;> exact hf

/-- Neither the order of the members counts nor the members with other names. -/
theorem describes_perm (hperm : ms'.Perm (ms ++ extra))
    (hextra : ∀ m ∈ extra, Field.ofKey? m.1 = none) (h : Describes ms b) : Describes ms' b := by
  intro f
  have hnone : valuesAt extra f = [] := by
    refine List.eq_nil_iff_forall_not_mem.mpr fun t ht => ?_
    have hkey := hextra _ (mem_valuesAt.mp ht)
    rw [Field.ofKey?_key] at hkey
    cases hkey
  have hvalues : (valuesAt ms' f).Perm (valuesAt ms f) := by
    have hperm := (hperm.filter fun m => m.1 == f.key).map (·.2)
    rw [List.filter_append, List.map_append] at hperm
    rwa [← valuesAt, ← valuesAt, ← valuesAt, hnone, List.append_nil] at hperm
  obtain ⟨t, hone, ht⟩ | ⟨hempty, hout⟩ := h f
  · rw [hone] at hvalues
    exact .inl ⟨t, List.perm_singleton.mp hvalues, ht⟩
  · rw [hempty] at hvalues
    exact .inr ⟨List.perm_nil.mp hvalues, hout⟩

end Objects

/-- **Which objects are bundles.** Behind an opening brace a bundle is read just if the
text is an object whose members describe it. An object is refused just if a field that
must not be missing is, a field is there twice, or its value is not of its type. Neither
the order of the members counts nor the members with other names, and all texts of a
bundle are written back as one, which is read as the bundle again. -/
theorem ofJson_object (text : Bytes) :
    (∀ b, (∃ rest, skipSpace text = code '\x7b' :: rest) ∧ ofJson text = .ok b
        ↔ ∃ ms, ObjectText ms text ∧ Describes ms b)
      ∧ (∀ ms, ObjectText ms text →
          ((∃ e, ofJson text = .error e) ↔ (∃ f ∈ Field.required, f.key ∉ ms.map (·.1))
            ∨ (∃ f : Field, 1 < (ms.map (·.1)).count f.key)
            ∨ ∃ (f : Field) (t : Bytes), (f.key, t) ∈ ms ∧ ¬f.Typed t))
      ∧ (∀ f : Field, f.Typed (['n', 'u', 'l', 'l'].map code)
          ↔ f = .testFile ∨ f = .implementationFile)
      ∧ (∀ ms b, ObjectText ms text → ofJson text = .ok b → ∀ ms' extra text',
          ms'.Perm (ms ++ extra) → (∀ m ∈ extra, Field.ofKey? m.1 = none) →
          ObjectText ms' text' → ofJson text' = .ok b)
      ∧ ∀ b, ofJson text = .ok b → ofJson (utf8 b.toJson) = .ok b
          ∧ ∀ text' b', ofJson text' = .ok b' → (b'.toJson = b.toJson ↔ b' = b) := by
  refine ⟨fun b => ?_, fun ms h => ?_, Field.typed_null, ?_, ?_⟩
  · constructor
    · rintro ⟨hopens, hread⟩
      obtain ⟨ms, h⟩ := exists_objectText hread hopens
      exact ⟨ms, h, (ofJson_eq_ok h).mp hread⟩
    · rintro ⟨ms, h, hdescribes⟩
      refine ⟨?_, (ofJson_eq_ok h).mpr hdescribes⟩
      obtain ⟨hbefore, -, -⟩ := h
      rw [Json.skipSpace_spacing hbefore, Json.skipSpace_cons (by decide)]
      exact ⟨_, rfl⟩
  · have hrefused : (∃ e, ofJson text = .error e) ↔ ¬∃ b, Describes ms b := by
      simp only [← ofJson_eq_ok h]
      cases ofJson text <;> simp
    rw [hrefused, exists_describes_iff]
    simp only [not_and_or, not_forall, exists_prop, Nat.not_le]
  · intro ms b h hread ms' extra text' hperm hextra h'
    exact (ofJson_eq_ok h').mpr (describes_perm hperm hextra ((ofJson_eq_ok h).mp hread))
  · intro b _
    refine ⟨ofJson_toJson b, fun text' b' _ => ⟨fun hsame => ?_, fun hsame => hsame ▸ rfl⟩⟩
    have hread := ofJson_toJson b'
    rw [hsame, ofJson_toJson b, Except.ok.injEq] at hread
    exact hread.symm

/-- An object in another order than is written, with a member of another name. -/
def shuffled : Bytes :=
  code '\x7b' :: utf8 ("\"x\":[\x7b\x7d],\"test_error\":\"e\",\"test_file\":null,"
    ++ "\"dependency_sources\":[], \"test_sources\":[\"s\"]\x7d")

theorem ofJson_object_shuffled :
    ∃ ms, ObjectText ms shuffled ∧ Describes ms ⟨"", "", none, none, ["s"], [], "e"⟩ := by
  have hopens : ∃ rest, skipSpace shuffled = code '\x7b' :: rest :=
    ⟨_, Json.skipSpace_cons (by decide) _⟩
  have hread : ofJson shuffled = .ok ⟨"", "", none, none, ["s"], [], "e"⟩ := by decide +kernel
  exact ((ofJson_object shuffled).1 _).mp ⟨hopens, hread⟩

end TestTriage.Bundle
