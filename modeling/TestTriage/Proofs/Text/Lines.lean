import TestTriage.Proofs.FeedJoining

/-!
# Texts as lines

A text has a line more than it has line feeds (`length_linesOf`). No byte of
another character looks like a line feed, and so a text without line feeds is
one line (`oneLine_utf8`).
-/

namespace TestTriage.Text

open Json (OneLine)

theorem newline_mem_utf8EncodeChar {c : Char} :
    Feed.newline ∈ String.utf8EncodeChar c ↔ c = '\n' := by
  constructor
  · intro h
    rcases Nat.lt_or_ge c.toNat 0x80 with hascii | hbeyond
    · rw [utf8EncodeChar_of_ascii hascii, List.mem_singleton] at h
      have hcode : c.toNat = 10 := by
        have hnat := congrArg UInt8.toNat h
        rw [Feed.newline, Nat.toUInt8, UInt8.toNat_ofNat', Nat.mod_eq_of_lt (by omega)] at hnat
        exact hnat.symm
      exact Char.toNat_inj.mp hcode
    · exact absurd (le_of_mem_utf8EncodeChar hbeyond h) (by decide)
  · rintro rfl
    decide

theorem oneLine_utf8 {s : String} : OneLine (utf8 s) ↔ '\n' ∉ s.toList := by
  rw [OneLine, utf8, encode, List.mem_flatMap, not_iff_not]
  constructor
  · rintro ⟨c, hc, hmem⟩
    exact newline_mem_utf8EncodeChar.mp hmem ▸ hc
  · intro h
    exact ⟨_, h, newline_mem_utf8EncodeChar.mpr rfl⟩

/-! ## Lines of a text -/

/-- The lines of a text, also an empty one at its end. -/
def linesOf (s : String) : List Bytes := Feed.lines (utf8 s ++ [Feed.newline])

theorem length_linesOf (s : String) :
    (linesOf s).length = (utf8 s).count Feed.newline + 1 :=
  Feed.length_lines_newline _

theorem length_linesOf_eq_one {s : String} : (linesOf s).length = 1 ↔ OneLine (utf8 s) := by
  rw [length_linesOf, Nat.add_eq_right, List.count_eq_zero]
  rfl

theorem linesOf_of_oneLine {s : String} (h : OneLine (utf8 s)) : linesOf s = [utf8 s] :=
  Feed.lines_append h []

theorem utf8_newline : utf8 "\n" = [Feed.newline] := by decide

/-- Texts with a line feed behind each of them, as lines. -/
theorem lines_join (ss : List String) :
    Feed.lines (utf8 (String.join (ss.map (· ++ "\n")))) = ss.flatMap linesOf := by
  induction ss with
  | nil => rfl
  | cons s ss ih =>
      rw [List.map_cons, String.join_cons, utf8_append, utf8_append, utf8_newline,
        List.append_assoc, List.singleton_append, Feed.lines_append_newline, ih,
        List.flatMap_cons, linesOf]

theorem flatMap_linesOf {ss : List String} (h : ∀ s ∈ ss, OneLine (utf8 s)) :
    ss.flatMap linesOf = ss.map utf8 := by
  rw [List.flatMap_congr fun s hs => linesOf_of_oneLine (h s hs), List.map_eq_flatMap]

/-- There are as many lines as texts just if every text is one line. -/
theorem length_flatMap_linesOf {ss : List String} :
    (ss.flatMap linesOf).length = ss.length ↔ ∀ s ∈ ss, OneLine (utf8 s) := by
  have hleast : ∀ ts : List String, ts.length ≤ (ts.flatMap linesOf).length := by
    intro ts
    induction ts with
    | nil => exact Nat.le_refl _
    | cons t ts ih =>
        rw [List.flatMap_cons, List.length_append, List.length_cons, length_linesOf]
        omega
  induction ss with
  | nil => simp
  | cons s ss ih =>
      have hrest := hleast ss
      have hone := length_linesOf s
      rw [List.flatMap_cons, List.length_append, List.length_cons, List.forall_mem_cons]
      refine Iff.trans ?_ (and_congr length_linesOf_eq_one ih)
      omega

end TestTriage.Text
