import Mathlib.Data.List.Nodup
import TestTriage.Proofs.Failing
import TestTriage.Toml.Document

/-!
# The keys of a document

No key of a document comes twice: what a header or a line adds to a table, it adds at a key
that the table does not have, or in the place of what the key stood for
(`distinct_of_parse`). While a document is read this is known of the root, and of the table
that values go to as long as it is the root itself, which it is in front of the first header.
-/

namespace TestTriage.Toml

/-- Are the keys of the table distinct? -/
def Table.Distinct (t : Table Value) : Prop := (t.entries.map (·.1.name)).Nodup

namespace Table

variable {t t' : Table Value} {β : Type}

theorem find?_eq_none_iff {name : String} :
    t.find? name = none ↔ name ∉ t.entries.map (·.1.name) := by
  simp [find?, List.find?_eq_none]

theorem distinct_append (ht : t.Distinct) {k : Key} (hk : t.find? k.name = none) (v : Value) :
    (t.append k v).Distinct := by
  have hnew := find?_eq_none_iff.mp hk
  rw [Distinct, append, List.map_append, List.nodup_append]
  refine ⟨ht, List.nodup_singleton _, ?_⟩
  rintro name hname _ hlast rfl
  obtain rfl := List.mem_singleton.mp hlast
  exact hnew hname

theorem distinct_replace (ht : t.Distinct) (name : String) (v : Value) :
    (t.replace name v).Distinct := by
  have hnames : (t.replace name v).entries.map (·.1.name) = t.entries.map (·.1.name) := by
    rw [replace, List.map_map]
    refine List.map_congr_left fun e _ => ?_
    simp only [Function.comp_apply]
    split <;> rfl
  rw [Distinct, hnames]
  exact ht

theorem distinct_erase (ht : t.Distinct) (name : String) : (t.erase name).Distinct :=
  ht.sublist (List.filter_sublist.map _)

/-- Going down to a table changes nothing but the value of one key of the first one. -/
theorem distinct_descend {inline dotted : Bool}
    {change : Table Value → Except Reason (β × Table Value)} {before : List String}
    {path : List Key} {b : β} (ht : t.Distinct)
    (hchange : path = [] → change t = .ok (b, t') → t'.Distinct)
    (h : t.descend inline dotted change before path = .ok (b, t')) : t'.Distinct := by
  cases path with
  | nil => exact hchange rfl h
  | cons k ks =>
      unfold descend at h
      split at h
      · next hk =>
          obtain ⟨⟨b', child⟩, -, heq⟩ := bind_eq_ok.mp h
          cases heq
          exact distinct_append ht hk _
      · next child hk =>
          split at h
          · cases h
          split at h
          · cases h
          obtain ⟨⟨b', child'⟩, -, heq⟩ := bind_eq_ok.mp h
          cases heq
          exact distinct_replace ht _ _
      · next span children hk =>
          split at h
          · cases h
          obtain ⟨⟨b', child'⟩, -, heq⟩ := bind_eq_ok.mp h
          cases heq
          exact distinct_replace ht _ _
      · cases h

theorem distinct_define {inline : Bool} {owner : Option (List String)} {path : List Key} {k : Key}
    {v : Value} (ht : t.Distinct) (h : t.define inline owner path k v = .ok t') : t'.Distinct := by
  obtain ⟨⟨⟨⟩, t₁⟩, hdescend, heq⟩ := bind_eq_ok.mp h
  cases heq
  refine distinct_descend ht ?_ hdescend
  rintro - hchange
  split at hchange
  · cases hchange
  split at hchange
  · cases hchange
  next hnone =>
    cases hchange
    exact distinct_append ht (by simpa using hnone) v

end Table

/-! ## Documents -/

namespace Draft

variable {d d' : Draft}

/-- What is known of the keys while a document is read. -/
structure Distinct (d : Draft) : Prop where
  root : d.root.Distinct
  current : d.path = [] → d.current.Distinct

theorem distinct_place {k : Key} {t t' : Table Value} (ht : t.Distinct)
    (h : d.place k t = .ok t') : t'.Distinct := by
  unfold place at h
  split at h
  · next hk =>
      cases h
      exact Table.distinct_append ht hk _
  · split at h
    · cases h
      exact Table.distinct_replace ht _ _
    · cases h
  · split at h
    · cases h
      exact Table.distinct_replace ht _ _
    · cases h
  · cases h

theorem distinct_finish {t : Table Value} (hd : d.Distinct) (h : d.finish = .ok t) :
    t.Distinct := by
  unfold finish at h
  split at h
  · next hpath =>
      cases h
      exact hd.current (List.getLast?_eq_none_iff.mp hpath)
  · obtain ⟨⟨⟨⟩, root⟩, hdescend, heq⟩ := bind_eq_ok.mp h
    cases heq
    refine Table.distinct_descend hd.root ?_ hdescend
    rintro - hchange
    obtain ⟨t', hplace, heq⟩ := bind_eq_ok.mp hchange
    cases heq
    exact distinct_place hd.root hplace

theorem distinct_openTable {path : List Key} {span : Span} (hd : d.Distinct)
    (h : d.openTable path span = .ok d') : d'.Distinct := by
  unfold openTable at h
  split at h
  · cases h
    exact hd
  · next k hpath =>
      obtain ⟨t, hfinish, h⟩ := bind_eq_ok.mp h
      obtain ⟨⟨entries, root⟩, hdescend, heq⟩ := bind_eq_ok.mp h
      cases heq
      refine ⟨?_, ?_⟩
      · have ht := distinct_finish hd hfinish
        refine Table.distinct_descend ht ?_ hdescend
        rintro - hchange
        split at hchange
        · cases hchange
          exact ht
        · split at hchange
          · cases hchange
            exact Table.distinct_erase ht _
          · cases hchange
        · cases hchange
      · rintro rfl
        cases hpath

theorem distinct_openRepeated {path : List Key} {span : Span} (hd : d.Distinct)
    (h : d.openRepeated path span = .ok d') : d'.Distinct := by
  unfold openRepeated at h
  split at h
  · cases h
    exact hd
  · next k hpath =>
      obtain ⟨t, hfinish, h⟩ := bind_eq_ok.mp h
      obtain ⟨⟨⟨⟩, root⟩, hdescend, heq⟩ := bind_eq_ok.mp h
      cases heq
      refine ⟨?_, ?_⟩
      · have ht := distinct_finish hd hfinish
        refine Table.distinct_descend ht ?_ hdescend
        rintro - hchange
        split at hchange
        · next hk =>
            cases hchange
            exact Table.distinct_append ht hk _
        · cases hchange
          exact ht
        · cases hchange
      · rintro rfl
        cases hpath

theorem distinct_add {m : Member} (hd : d.Distinct) (h : d.add m = .ok d') : d'.Distinct := by
  obtain ⟨current, hdefine, heq⟩ := bind_eq_ok.mp h
  cases heq
  refine ⟨hd.root, fun hpath => Table.distinct_define ?_ hdefine⟩
  exact hd.current hpath

end Draft

/-! ## Lines -/

variable {d d' : Draft} {bs rest : Text.Bytes}

theorem eq_ok_of_or_refuse {x : Except Reason Draft} {behind : Text.Bytes}
    (h : (match x with
      | .ok d => pure (d, behind)
      | .error reason => refuse reason bs) = Except.ok (d', rest)) : x = .ok d' := by
  cases x with
  | error reason => cases h
  | ok d =>
      cases h
      rfl

theorem distinct_header (hd : d.Distinct) (h : header d bs = .ok (d', rest)) : d'.Distinct := by
  replace h := mapError_eq_ok.mp h
  split at h
  next repeated opening closing _ =>
    split at h
    · cases h
    obtain ⟨⟨path, rest₁⟩, -, h⟩ := bind_eq_ok.mp h
    obtain ⟨rest₂, -, h⟩ := bind_eq_ok.mp h
    obtain ⟨behind, -, h⟩ := bind_eq_ok.mp h
    have hopen := eq_ok_of_or_refuse h
    split at hopen
    · exact Draft.distinct_openRepeated hd hopen
    · exact Draft.distinct_openTable hd hopen

theorem distinct_entry (hd : d.Distinct) (h : entry d bs = .ok (d', rest)) : d'.Distinct := by
  obtain ⟨⟨m, behind⟩, -, h⟩ := bind_eq_ok.mp h
  exact Draft.distinct_add hd (eq_ok_of_or_refuse h)

theorem distinct_lines {limit : Nat} (hd : d.Distinct) (h : lines limit d bs = .ok d') :
    d'.Distinct := by
  fun_induction lines limit d bs with
  | case1 | case2 =>
      cases h
      exact hd
  | case3 limit d bs rest _ ih =>
      obtain ⟨behind, -, h⟩ := bind_eq_ok.mp h
      exact ih behind hd h
  | case4 limit d bs rest _ _ ih =>
      obtain ⟨⟨d₁, behind⟩, hheader, h⟩ := bind_eq_ok.mp h
      exact ih d₁ behind (distinct_header hd hheader) h
  | case5 limit d bs b rest _ _ _ behind _ ih => exact ih hd h
  | case6 => cases h
  | case7 limit d bs b rest _ _ _ _ _ ih =>
      obtain ⟨⟨d₁, behind⟩, hentry, h⟩ := bind_eq_ok.mp h
      exact ih d₁ behind (distinct_entry hd hentry) h

theorem distinct_of_parse {document : Text.Bytes} {t : Table Value}
    (h : parse document = .ok t) : t.Distinct := by
  unfold parse at h
  split at h
  · cases h
  · next d hlines =>
      split at h
      · next hfinish =>
          cases h
          have hstart : Draft.start.Distinct := by
            constructor <;> simp [Table.Distinct, Draft.start, Table.empty]
          exact Draft.distinct_finish (distinct_lines hstart hlines) hfinish
      · cases h

end TestTriage.Toml
