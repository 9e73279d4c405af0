import TestTriage.Proofs.CommandLine
import TestTriage.Proofs.Toml.Keys

/-!
# Layers of settings

A setting has the value that the highest layer gives it: the arguments, then
the file that is named or else the project's, then the user's file, then the
defaults. Each setting is looked up by itself: `Setting` names the six of them,
and says of one what a record of settings, a layer, an entry of a document or
an argument tells about it.

A layer that is there but cannot be used is a fault of the run. The fault that
is told is that of the first layer that has one (`FirstFault`), and in a
document that of its first entry that has one.
-/

namespace TestTriage

open Toml (Span Key Value Table Cause)
open CommandLine (Options Saying)

/-! ## One setting -/

/-- A setting with values of some type. -/
inductive Setting : Type → Type where
  | testBeginning : Setting String
  | ignored : Setting (List String)
  | keepGoing : Setting Bool
  | parallel : Setting Bool
  | transitive : Setting Bool
  | format : Setting OutputFormat

namespace Setting

variable {α : Type}

def value (s : Settings) : Setting α → α
  | testBeginning => s.testBeginning
  | ignored => s.ignored
  | keepGoing => s.keepGoing
  | parallel => s.parallel
  | transitive => s.transitive
  | format => s.format

def default : Setting α → α
  | testBeginning => "Test"
  | ignored => [".git", "node_modules", ".idea", ".vscode"]
  | keepGoing => false
  | parallel => false
  | transitive => false
  | format => .json

/-- The value that a layer gives. -/
def given? (l : SettingsLayer) : Setting α → Option α
  | testBeginning => l.testBeginning
  | ignored => l.ignored
  | keepGoing => l.keepGoing
  | parallel => l.parallel
  | transitive => l.transitive
  | format => l.format

/-- The key in a document. -/
def key : Setting α → String
  | testBeginning => "test_prefix"
  | ignored => "ignore_dirs"
  | keepGoing => "keep_going"
  | parallel => "parallel"
  | transitive => "transitive"
  | format => "format"

/-- The value in a document. -/
def decode (keySpan : Span) (v : Value) : Setting α → Except (Span × Cause) α
  | testBeginning => SettingsLayer.string keySpan v
  | ignored => SettingsLayer.strings keySpan v
  | keepGoing => SettingsLayer.boolean keySpan v
  | parallel => SettingsLayer.boolean keySpan v
  | transitive => SettingsLayer.boolean keySpan v
  | format => SettingsLayer.outputFormat keySpan v

/-- What is said of the setting, if anything. -/
def told? : Setting α → Saying → Option α
  | testBeginning, .value .testBeginning name => some name
  | format, .value .format name => OutputFormat.ofName? name
  | keepGoing, .flag (.switch .keepGoing on) => some on
  | parallel, .flag (.switch .parallel on) => some on
  | transitive, .flag (.switch .transitive on) => some on
  | _, _ => none

theorem value_apply (x : Setting α) (l : SettingsLayer) (s : Settings) :
    x.value (l.apply s) = (x.given? l).getD (x.value s) := by
  cases x <;> rfl

theorem value_default (x : Setting α) : x.value {} = x.default := by
  cases x <;> rfl

theorem given?_empty (x : Setting α) : x.given? {} = none := by
  cases x <;> rfl

theorem exists_key {name : String} (h : name ∈ SettingsLayer.keys) :
    ∃ (α : Type) (x : Setting α), name = x.key := by
  simp only [SettingsLayer.keys, List.mem_cons, List.not_mem_nil, or_false] at h
  rcases h with rfl | rfl | rfl | rfl | rfl | rfl
  · exact ⟨_, testBeginning, rfl⟩
  · exact ⟨_, ignored, rfl⟩
  · exact ⟨_, keepGoing, rfl⟩
  · exact ⟨_, parallel, rfl⟩
  · exact ⟨_, transitive, rfl⟩
  · exact ⟨_, format, rfl⟩

end Setting

/-! ## Entries of a document -/

/-- What may be wrong with an entry of a settings document. -/
inductive EntryFault (entry : Key × Value) : Span × Cause → Prop where
  | unknownKey (h : entry.1.name ∉ SettingsLayer.keys) :
      EntryFault entry (entry.1.span, .unknownKey entry.1.name SettingsLayer.keys)
  | badValue {α : Type} (x : Setting α) {fault : Span × Cause} (hx : entry.1.name = x.key)
      (h : x.decode entry.1.span entry.2 = .error fault) : EntryFault entry fault

namespace SettingsLayer

variable {α β : Type} {l l' : SettingsLayer} {k : Key} {v : Value}

/-- The layer with another value of a setting. -/
def put (l : SettingsLayer) : Setting α → α → SettingsLayer
  | .testBeginning, a => { l with testBeginning := some a }
  | .ignored, a => { l with ignored := some a }
  | .keepGoing, a => { l with keepGoing := some a }
  | .parallel, a => { l with parallel := some a }
  | .transitive, a => { l with transitive := some a }
  | .format, a => { l with format := some a }

theorem set_of_key (l : SettingsLayer) (x : Setting α) (hk : k.name = x.key) :
    set l k v = (x.decode k.span v).map (l.put x) := by
  cases x <;> simp only [Setting.key] at hk <;> simp [set, hk] <;> rfl

theorem set_of_notMem (l : SettingsLayer) (hk : k.name ∉ keys) :
    set l k v = .error (k.span, .unknownKey k.name keys) := by
  simp only [keys, List.mem_cons, List.not_mem_nil, or_false, not_or] at hk
  obtain ⟨h₁, h₂, h₃, h₄, h₅, h₆⟩ := hk
  simp only [set, h₁, h₂, h₃, h₄, h₅, h₆, if_false]
  rfl

theorem given?_put (x : Setting α) (a : α) : x.given? (l.put x a) = some a := by
  cases x <;> rfl

theorem given?_put_of_ne (x : Setting α) (a : α) (y : Setting β) (h : x.key ≠ y.key) :
    y.given? (l.put x a) = y.given? l := by
  cases x <;> cases y <;> first | rfl | exact absurd rfl h

theorem set_eq_error_iff {fault : Span × Cause} :
    set l k v = .error fault ↔ EntryFault (k, v) fault := by
  constructor
  · intro h
    by_cases hk : k.name ∈ keys
    · obtain ⟨α, x, hx⟩ := Setting.exists_key hk
      rw [set_of_key l x hx] at h
      exact .badValue x hx (map_eq_error.mp h)
    · rw [set_of_notMem l hk] at h
      cases h
      exact .unknownKey hk
  · intro h
    cases h with
    | unknownKey hk => exact set_of_notMem l hk
    | badValue x hx h =>
        rw [set_of_key l x hx]
        exact map_eq_error.mpr h

theorem exists_of_set (h : set l k v = .ok l') (x : Setting α) (hx : k.name = x.key) :
    ∃ a, x.decode k.span v = .ok a ∧ l' = l.put x a := by
  rw [set_of_key l x hx] at h
  obtain ⟨a, hdecode, rfl⟩ := map_eq_ok.mp h
  exact ⟨a, hdecode, rfl⟩

theorem given?_set_of_ne (h : set l k v = .ok l') (x : Setting α) (hx : k.name ≠ x.key) :
    x.given? l' = x.given? l := by
  have hk : k.name ∈ keys := by
    by_contra hk
    rw [set_of_notMem l hk] at h
    cases h
  obtain ⟨β, y, hy⟩ := Setting.exists_key hk
  obtain ⟨b, -, rfl⟩ := exists_of_set h y hy
  exact given?_put_of_ne y b x (hy ▸ hx)

end SettingsLayer

/-! ## Files -/

namespace Setting

variable {α : Type}

/-- The value that the entries of a document give. -/
def among? (entries : List (Key × Value)) (x : Setting α) : Option α :=
  (entries.find? (·.1.name == x.key)).bind fun (k, v) => (x.decode k.span v).toOption

/-- The value that a file gives, if it is there. -/
def inFile? (t : FileTree) (x : Setting α) (p : Path) : Option α :=
  if t.isFile p then do
    let text ← (t.readText p).toOption
    let table ← (Toml.parse (Text.utf8 text)).toOption
    x.among? table.entries
  else none

theorem among?_eq_none {entries : List (Key × Value)} {x : Setting α}
    (h : x.key ∉ entries.map (·.1.name)) : x.among? entries = none := by
  have hnone : entries.find? (·.1.name == x.key) = none := by
    rw [List.find?_eq_none]
    intro e he heq
    exact h (List.mem_map.mpr ⟨e, he, by simpa using heq⟩)
  rw [among?, hnone]
  rfl

theorem given?_foldlM {entries : List (Key × Value)} {l l' : SettingsLayer}
    (hdistinct : (entries.map (·.1.name)).Nodup)
    (h : entries.foldlM (fun l (k, v) => SettingsLayer.set l k v) l = .ok l') (x : Setting α) :
    x.given? l' = (x.among? entries).or (x.given? l) := by
  induction entries generalizing l with
  | nil =>
      cases h
      rfl
  | cons e entries ih =>
      obtain ⟨k, v⟩ := e
      rw [List.foldlM_cons] at h
      obtain ⟨l₁, hset, h⟩ := bind_eq_ok.mp h
      obtain ⟨hnew, hdistinct⟩ := List.nodup_cons.mp hdistinct
      rw [ih hdistinct h]
      -- an entry with the key is the only one, so what it gives is not given again
      by_cases hx : k.name = x.key
      · obtain ⟨a, hdecode, rfl⟩ := SettingsLayer.exists_of_set hset x hx
        have hfirst : x.among? ((k, v) :: entries) = (x.decode k.span v).toOption := by
          rw [among?, List.find?_cons_of_pos (by simpa using hx)]
          rfl
        rw [among?_eq_none (hx ▸ hnew), SettingsLayer.given?_put, hfirst, hdecode]
        rfl
      · rw [SettingsLayer.given?_set_of_ne hset x hx, among?, among?,
          List.find?_cons_of_neg (by simpa using hx)]

end Setting

/-- What may be wrong with a settings file. -/
inductive FileFault (t : FileTree) (p : Path) : SettingsFault → Prop where
  | unreadable {fault : FileTree.Fault} (h : t.readText p = .error fault) :
      FileFault t p (.unreadable fault)
  | malformed {text : String} {error : Toml.Error} (htext : t.readText p = .ok text)
      (h : Toml.parse (Text.utf8 text) = .error error) : FileFault t p (.malformed error)
  | entry {text : String} {table : Table Value} {span : Span} {cause : Cause}
      (htext : t.readText p = .ok text) (htable : Toml.parse (Text.utf8 text) = .ok table)
      (h : FirstFault EntryFault table.entries (span, cause)) :
      FileFault t p (.malformed ⟨Text.utf8 text, span, cause⟩)

/-- What is wrong with a layer: a file that is there has a fault. -/
def LayerFault (t : FileTree) (p : Path) (problem : Problem) : Prop :=
  t.isFile p = true ∧ ∃ fault, FileFault t p fault ∧ problem = .badSettings p fault

namespace SettingsLayer

variable {t : FileTree} {p : Path}

theorem foldlM_set_eq_error_iff {entries : List (Key × Value)} {l : SettingsLayer}
    {fault : Span × Cause} :
    entries.foldlM (fun l (k, v) => set l k v) l = .error fault
      ↔ FirstFault EntryFault entries fault :=
  foldlM_eq_error_iff fun _ (k, v) _ => set_eq_error_iff (k := k) (v := v)

theorem ofDocument_of_parse {text : Text.Bytes} {table : Table Value}
    (h : Toml.parse text = .ok table) :
    ofDocument text = (table.entries.foldlM (fun l (k, v) => set l k v) {}).mapError
      fun (span, cause) => ⟨text, span, cause⟩ := by
  unfold ofDocument
  rw [h]
  cases hfold : table.entries.foldlM (fun l (k, v) => set l k v) {} with
  | error fault =>
      simp only [bind, Except.bind, hfold]
      rfl
  | ok l =>
      simp only [bind, Except.bind, hfold]
      rfl

theorem read_of_text {text : String} (h : t.readText p = .ok text) :
    read t p = (ofDocument (Text.utf8 text)).mapError fun e => .badSettings p (.malformed e) := by
  simp only [read, h]
  cases ofDocument (Text.utf8 text) <;> rfl

theorem read_eq_error_iff {problem : Problem} :
    read t p = .error problem ↔ ∃ fault, FileFault t p fault ∧ problem = .badSettings p fault := by
  constructor
  · intro h
    cases htext : t.readText p with
    | error fault =>
        rw [read, htext] at h
        cases h
        exact ⟨_, .unreadable htext, rfl⟩
    | ok text =>
        rw [read_of_text htext] at h
        obtain ⟨error, hdocument, rfl⟩ := mapError_eq_error.mp h
        cases htable : Toml.parse (Text.utf8 text) with
        | error error' =>
            rw [ofDocument, htable] at hdocument
            cases hdocument
            exact ⟨_, .malformed htext htable, rfl⟩
        | ok table =>
            rw [ofDocument_of_parse htable] at hdocument
            obtain ⟨⟨span, cause⟩, hfold, rfl⟩ := mapError_eq_error.mp hdocument
            exact ⟨_, .entry htext htable (foldlM_set_eq_error_iff.mp hfold), rfl⟩
  · rintro ⟨fault, hfault, rfl⟩
    cases hfault with
    | unreadable htext => rw [read, htext]
    | malformed htext htable =>
        rw [read_of_text htext, ofDocument, htable]
        rfl
    | entry htext htable hfirst =>
        rw [read_of_text htext, ofDocument_of_parse htable, foldlM_set_eq_error_iff.mpr hfirst]
        rfl

theorem given?_of_read {α : Type} {l : SettingsLayer} (hfile : t.isFile p = true)
    (h : read t p = .ok l) (x : Setting α) : x.given? l = x.inFile? t p := by
  rw [Setting.inFile?, if_pos hfile]
  cases htext : t.readText p with
  | error fault =>
      rw [read, htext] at h
      cases h
  | ok text =>
      rw [read_of_text htext] at h
      replace h := mapError_eq_ok.mp h
      cases htable : Toml.parse (Text.utf8 text) with
      | error error =>
          rw [ofDocument, htable] at h
          cases h
      | ok table =>
          rw [ofDocument_of_parse htable] at h
          have hgiven := Setting.given?_foldlM (Toml.distinct_of_parse htable)
            (mapError_eq_ok.mp h) x
          rw [hgiven, Setting.given?_empty, Option.or_none]
          show _ = (Toml.parse (Text.utf8 text)).toOption.bind fun table => x.among? table.entries
          rw [htable]
          rfl

end SettingsLayer

namespace Settings

variable {t : FileTree} {s s' : Settings} {ps : List Path}

theorem withLayers_eq_foldlM (t : FileTree) (s : Settings) (ps : List Path) :
    withLayers t s ps
      = ps.foldlM (fun s p =>
        if t.isFile p then (SettingsLayer.read t p).map (·.apply s) else .ok s) s := by
  induction ps generalizing s with
  | nil => rfl
  | cons p ps ih =>
      rw [withLayers, List.foldlM_cons]
      split
      · cases SettingsLayer.read t p with
        | error problem => rfl
        | ok l => exact ih _
      · exact ih s

theorem withLayers_eq_error_iff {problem : Problem} :
    withLayers t s ps = .error problem ↔ FirstFault (LayerFault t) ps problem := by
  rw [withLayers_eq_foldlM]
  refine foldlM_eq_error_iff fun s p problem => ?_
  by_cases hfile : t.isFile p = true
  · rw [if_pos hfile, map_eq_error, SettingsLayer.read_eq_error_iff]
    exact (and_iff_right hfile).symm
  · rw [if_neg hfile]
    constructor
    · intro h
      cases h
    · rintro ⟨hthere, -⟩
      exact absurd hthere hfile

theorem value_of_withLayers {α : Type} (h : withLayers t s ps = .ok s') (x : Setting α) :
    x.value s' = (ps.filterMap (x.inFile? t)).getLast?.getD (x.value s) := by
  induction ps generalizing s with
  | nil =>
      cases h
      rfl
  | cons p ps ih =>
      rw [withLayers] at h
      split at h
      · next hfile =>
          obtain ⟨l, hread, h⟩ := bind_eq_ok.mp h
          rw [ih h, Setting.value_apply, SettingsLayer.given?_of_read hfile hread]
          cases hp : x.inFile? t p with
          | none =>
              rw [List.filterMap_cons_none hp]
              rfl
          | some a =>
              rw [List.filterMap_cons_some hp, List.getLast?_cons]
              rfl
      · next hfile =>
          have hp : x.inFile? t p = none := if_neg hfile
          rw [ih h, List.filterMap_cons_none hp]

end Settings

/-! ## Arguments -/

namespace CommandLine

variable {α : Type} {o o' : Options}

theorem eq_of_once {before after : Option α} {value : α} (h : once before value = .ok after) :
    after = some value := by
  unfold once at h
  split at h
  · cases h
  · cases h
    rfl

theorem eq_of_turned {before after : Option Bool} {on : Bool} (h : turned before on = .ok after) :
    after = some on := by
  unfold turned at h
  split at h
  · cases h
  · cases h
    rfl

theorem given?_take {s : Saying} (h : o.take s = .ok o') (x : Setting α) :
    x.given? o'.layer = (x.told? s).or (x.given? o.layer) := by
  cases s with
  | value what value =>
      cases what with
      | root | input | config =>
          obtain ⟨p, -, h⟩ := bind_eq_ok.mp h
          obtain ⟨after, -, h⟩ := bind_eq_ok.mp h
          cases h
          cases x <;> rfl
      | format =>
          rw [Options.take, Options.set] at h
          cases hname : OutputFormat.ofName? value with
          | none =>
              rw [hname] at h
              cases h
          | some f =>
              rw [hname] at h
              obtain ⟨after, honce, h⟩ := bind_eq_ok.mp h
              cases h
              obtain rfl := eq_of_once honce
              cases x with
              | format => simp [Setting.given?, Setting.told?, Options.layer, hname]
              | _ => rfl
      | testBeginning =>
          obtain ⟨after, honce, h⟩ := bind_eq_ok.mp h
          cases h
          obtain rfl := eq_of_once honce
          cases x <;> rfl
  | flag f =>
      cases f with
      | switch which on =>
          cases which with
          | keepGoing | parallel | transitive =>
              obtain ⟨after, hturned, h⟩ := bind_eq_ok.mp h
              cases h
              obtain rfl := eq_of_turned hturned
              cases x <;> rfl
      | verbose =>
          cases h
          cases x <;> rfl
      | logJson =>
          rw [Options.take, Options.raise] at h
          split at h
          · cases h
          · cases h
            cases x <;> rfl
      | help | version => cases h

theorem given?_takeAll {said : List Saying} (h : o.takeAll said = .ok o') (x : Setting α) :
    x.given? o'.layer = (said.filterMap x.told?).getLast?.or (x.given? o.layer) := by
  induction said generalizing o with
  | nil =>
      cases h
      rfl
  | cons s said ih =>
      rw [takeAll_cons] at h
      obtain ⟨o₁, htake, h⟩ := bind_eq_ok.mp h
      rw [ih h, given?_take htake]
      cases hs : x.told? s with
      | none =>
          rw [List.filterMap_cons_none hs]
          rfl
      | some a =>
          rw [List.filterMap_cons_some hs, List.getLast?_cons]
          cases (said.filterMap x.told?).getLast? <;> rfl

end CommandLine

/-! ## All layers -/

namespace Settings

variable {t t' : FileTree} {user named : Option Path} {root : Path}

theorem withLayers_congr {ps : List Path}
    (h : ∀ p ∈ ps, t'.isFile p = t.isFile p ∧ t'.readText p = t.readText p) (s : Settings) :
    withLayers t' s ps = withLayers t s ps := by
  induction ps generalizing s with
  | nil => rfl
  | cons p ps ih =>
      obtain ⟨hfile, htext⟩ := h p List.mem_cons_self
      have hread : SettingsLayer.read t' p = SettingsLayer.read t p := by
        simp only [SettingsLayer.read, htext]
      have hrest := ih fun q hq => h q (List.mem_cons_of_mem p hq)
      simp only [withLayers, hfile, hread, hrest]

theorem load_eq_ok {s : Settings} (h : load t user root named = .ok s) :
    ofLayers t (layerFiles user root named) = .ok s := by
  unfold load at h
  split at h
  · split at h
    · exact h
    · cases h
  · exact h

theorem load_eq_error_iff {problem : Problem} :
    load t user root named = .error problem
      ↔ (∃ p, named = some p ∧ t.isFile p = false ∧ problem = .badSettings p .missing)
        ∨ ((∀ p, named = some p → t.isFile p = true)
          ∧ FirstFault (LayerFault t) (layerFiles user root named) problem) := by
  rw [← withLayers_eq_error_iff (s := {}), ← ofLayers]
  cases named with
  | none => simp [load]
  | some p =>
      cases hfile : t.isFile p with
      | true => simp [load, hfile]
      | false =>
          simp only [load, hfile, Bool.false_eq_true, if_false, Except.error.injEq,
            Option.some.injEq]
          constructor
          · rintro rfl
            exact .inl ⟨p, rfl, hfile, rfl⟩
          · rintro (⟨_, rfl, -, rfl⟩ | ⟨hthere, -⟩)
            · rfl
            · exact absurd (hthere p rfl) (by simp [hfile])

theorem load_congr {p : Path} (root' : Path)
    (h : ∀ q ∈ user.toList ++ [p], t'.isFile q = t.isFile q ∧ t'.readText q = t.readText q) :
    load t' user root' (some p) = load t user root (some p) := by
  obtain ⟨hfile, -⟩ := h p (by simp)
  simp only [load, hfile, ofLayers, layerFiles, Option.getD_some, withLayers_congr h]

end Settings

theorem Setting.last_layerFiles {α : Type} (x : Setting α) (t : FileTree) (user : Option Path)
    (root : Path) (named : Option Path) :
    ((Settings.layerFiles user root named).filterMap (x.inFile? t)).getLast?
      = (x.inFile? t (named.getD (root.join Settings.projectFile))).or
        (user.bind (x.inFile? t)) := by
  rw [Settings.layerFiles, List.filterMap_append, List.getLast?_append]
  congr 1
  · cases hx : x.inFile? t (named.getD (root.join Settings.projectFile)) <;> simp [hx]
  · cases user with
    | none => rfl
    | some p => cases hx : x.inFile? t p <;> simp [hx]

/-- **Every setting has the value of the highest layer that gives one.** The arguments give
what they say of it last. Loading fails just if a file is named that is not there, whatever
the user's file holds, or else with the fault of the first layer that has one. If a file is
named, nothing but that file and the user's is looked at. -/
theorem settings_by_layer (t : FileTree) (user : Option Path) (root : Path) (named : Option Path)
    {arguments : List String} {o : Options} (h : CommandLine.read arguments = .ok o) :
    let top := named.getD (root.join Settings.projectFile)
    (∃ said, CommandLine.Says arguments said)
      ∧ (∀ said settings, CommandLine.Says arguments said →
        Settings.load t user root named = .ok settings →
        ∀ {α : Type} (x : Setting α), x.value (o.layer.apply settings)
          = (((said.filterMap x.told?).getLast?.or (x.inFile? t top)).or
            (user.bind (x.inFile? t))).getD x.default)
      ∧ (∀ problem, Settings.load t user root named = .error problem
        ↔ (∃ p, named = some p ∧ t.isFile p = false ∧ problem = .badSettings p .missing)
          ∨ ((∀ p, named = some p → t.isFile p = true)
            ∧ FirstFault (LayerFault t) (user.toList ++ [top]) problem))
      ∧ ∀ p, named = some p → ∀ t' root',
        (∀ q ∈ user.toList ++ [p], t'.isFile q = t.isFile q ∧ t'.readText q = t.readText q) →
        Settings.load t' user root' named = Settings.load t user root named := by
  intro top
  refine ⟨?_, ?_, fun problem => Settings.load_eq_error_iff, ?_⟩
  · obtain ⟨said, hsaid, -⟩ := CommandLine.read_eq_ok_iff.mp h
    exact ⟨said, hsaid⟩
  · intro said settings hsaid hload α x
    -- what is said is what the options are read from, in whatever way it is said
    have hall : Options.takeAll {} said = .ok o :=
      (CommandLine.readInto_eq hsaid {}).symm.trans h
    have hopen : x.given? ({} : Options).layer = none := x.given?_empty
    have hfiles := Settings.value_of_withLayers (Settings.load_eq_ok hload) x
    rw [Setting.value_apply, CommandLine.given?_takeAll hall, hopen, Option.or_none, hfiles,
      Setting.last_layerFiles, Setting.value_default]
    simp only [top, Option.getD_or]
  · rintro p rfl t' root' hsame
    exact Settings.load_congr root' hsame

/-- A user's file, and a project with a file of its own. -/
def twoLayers : FileTree :=
  ((FileTree.ofStart []).write ⟨"user.toml"⟩
      "keep_going = true\nparallel = true\nformat = \"summary\"\n".toUTF8).write
    ⟨"./.gofix.toml"⟩ "format = \"prompt\"\nignore_dirs = [\"vendor\"]\n".toUTF8

theorem settings_by_layer_twoLayers :
    let user : Path := ⟨"user.toml"⟩
    let arguments := ["--keep-going", "--test-prefix=Fuzz", "--no-keep-going"]
    let o : Options := { testBeginning := some "Fuzz", keepGoing := some false }
    let settings : Settings :=
      { ignored := ["vendor"], keepGoing := true, parallel := true, format := .prompt }
    CommandLine.read arguments = .ok o
      ∧ Settings.load twoLayers (some user) ⟨"."⟩ none = .ok settings
      ∧ o.layer.apply settings = ⟨"Fuzz", ["vendor"], false, true, false, .prompt⟩
      ∧ ∃ said, CommandLine.Says arguments said ∧
        ∀ {α : Type} (x : Setting α), x.value (o.layer.apply settings)
          = (((said.filterMap x.told?).getLast?.or (x.inFile? twoLayers ⟨"./.gofix.toml"⟩)).or
            (x.inFile? twoLayers user)).getD x.default := by
  intro user arguments o settings
  have hread : CommandLine.read arguments = .ok o := by decide +kernel
  have hload : Settings.load twoLayers (some user) ⟨"."⟩ none = .ok settings := by decide +kernel
  obtain ⟨⟨said, hsaid⟩, hvalue, -, -⟩ := settings_by_layer twoLayers (some user) ⟨"."⟩ none hread
  exact ⟨hread, hload, rfl, said, hsaid, hvalue said settings hsaid hload⟩

end TestTriage
