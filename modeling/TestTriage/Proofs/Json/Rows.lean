import TestTriage.Proofs.Failing
import TestTriage.Proofs.Json.Numerals
import TestTriage.Proofs.Json.Strings

/-!
# Rows of items and of members

The loops for lists and for objects, for any reader of items and of
members. What they read is a row up to its closing bracket (`Row`): each
item stands behind white space, and each but the first behind a comma
(`Lead`). A row is read as its items whatever stands behind the bracket
(`items_row`), and nothing but a row is read at all (`exists_row_of_items`).
-/

namespace TestTriage.Json

open Text (Bytes)

/-! ## White space -/

/-- White space between tokens. -/
def IsSpacing (gap : Bytes) : Prop := ∀ b ∈ gap, isSpace b = true

theorem isSpacing_nil : IsSpacing [] := List.forall_mem_nil _

theorem isSpacing_append {gap gap' : Bytes} :
    IsSpacing (gap ++ gap') ↔ IsSpacing gap ∧ IsSpacing gap' :=
  List.forall_mem_append

theorem IsGap.isSpacing {gap : Bytes} (h : IsGap gap) : IsSpacing gap := by
  intro b hb
  rcases h b hb with rfl | rfl | rfl <;> decide

theorem skipSpace_cons {b : UInt8} (h : isSpace b = false) (bs : Bytes) :
    skipSpace (b :: bs) = b :: bs := by
  rw [skipSpace, List.dropWhile_cons, h]
  rfl

theorem skipSpace_spacing {gap : Bytes} (h : IsSpacing gap) (bs : Bytes) :
    skipSpace (gap ++ bs) = skipSpace bs :=
  List.dropWhile_append_of_pos h

theorem exists_spacing (bs : Bytes) : ∃ gap, IsSpacing gap ∧ bs = gap ++ skipSpace bs :=
  ⟨bs.takeWhile isSpace, List.all_eq_true.mp List.all_takeWhile,
    List.takeWhile_append_dropWhile.symm⟩

theorem skipSpace_eq_nil {bs : Bytes} : skipSpace bs = [] ↔ IsSpacing bs := by
  constructor
  · intro h
    obtain ⟨gap, hgap, hbs⟩ := exists_spacing bs
    rw [h, List.append_nil] at hbs
    exact hbs ▸ hgap
  · intro h
    have hskip := skipSpace_spacing h []
    rwa [List.append_nil] at hskip

/-- White space is passed over up to a byte that is none. -/
theorem exists_spacing_cons {bs rest : Bytes} {b : UInt8} (h : skipSpace bs = b :: rest) :
    ∃ gap, IsSpacing gap ∧ bs = gap ++ b :: rest := by
  obtain ⟨gap, hgap, hbs⟩ := exists_spacing bs
  exact ⟨gap, hgap, h ▸ hbs⟩

theorem isSpace_of_skipSpace {bs rest : Bytes} {b : UInt8} (h : skipSpace bs = b :: rest) :
    isSpace b = false := by
  have hhead := List.head?_dropWhile_not isSpace bs
  rw [← skipSpace, h, List.head?_cons] at hhead
  exact Bool.eq_false_iff.mpr (by simpa using hhead)

theorem ends_spacing {gap rest : Bytes} (h : IsSpacing gap) (hrest : Ends rest) :
    Ends (gap ++ rest) := by
  cases gap with
  | nil => exact hrest
  | cons b gap => exact ends_cons.mpr (.inl (h b List.mem_cons_self))

theorem ends_comma (rest : Bytes) : Ends (code ',' :: rest) := ends_cons.mpr (.inr (.inl rfl))

theorem ends_closing {gap : Bytes} {b : UInt8} (hgap : IsSpacing gap)
    (hb : b = code ']' ∨ b = code '\x7d') (rest : Bytes) : Ends (gap ++ b :: rest) :=
  ends_spacing hgap (ends_cons.mpr (.inr (.inr hb)))

/-- What leads to an item: white space, and behind another item a comma in it. -/
inductive Lead : (first : Bool) → Bytes → Prop where
  | first {gap : Bytes} (h : IsSpacing gap) : Lead true gap
  | comma {gap before : Bytes} (hgap : IsSpacing gap) (hbefore : IsSpacing before) :
      Lead false (gap ++ code ',' :: before)

theorem Lead.append {first : Bool} {l gap : Bytes} (h : Lead first l) (hgap : IsSpacing gap) :
    Lead first (l ++ gap) := by
  cases h with
  | first h => exact .first (isSpacing_append.mpr ⟨h, hgap⟩)
  | comma hgap' hbefore =>
      rw [List.append_assoc, List.cons_append]
      exact .comma hgap' (isSpacing_append.mpr ⟨hbefore, hgap⟩)

theorem Lead.ends {l : Bytes} (h : Lead false l) (rest : Bytes) : Ends (l ++ rest) := by
  cases h with
  | comma hgap =>
      rw [List.append_assoc]
      exact ends_spacing hgap (ends_comma _)

/-- The items that are left of a list or an object, up to its closing bracket
and with it. -/
inductive Row {α : Type} (closing : Char) (item : α → Bytes → Prop) :
    (first : Bool) → List α → Bytes → Prop where
  | close {first : Bool} {gap : Bytes} (h : IsSpacing gap) :
      Row closing item first [] (gap ++ [code closing])
  | item {first : Bool} {x : α} {xs : List α} {l t r : Bytes} (hlead : Lead first l)
      (hx : item x t) (hrest : Row closing item false xs r) :
      Row closing item first (x :: xs) (l ++ t ++ r)

section Row

variable {α : Type} {closing : Char} {written : α → Bytes → Prop} {first : Bool} {xs : List α}
  {t : Bytes}

/-- What stands behind an item ends it. -/
theorem Row.ends (hclosing : closing = ']' ∨ closing = '\x7d') (h : Row closing written false xs t)
    (rest : Bytes) : Ends (t ++ rest) := by
  cases h with
  | close hgap =>
      rw [List.append_assoc]
      exact ends_closing hgap (hclosing.imp (congrArg code) (congrArg code)) _
  | item hlead =>
      rw [List.append_assoc, List.append_assoc]
      exact hlead.ends _

end Row

/-! ## Lists -/

/-- The reader takes the text for `x`, whatever follows it. -/
structure Takes {α : Type} (read : Read α) (x : α) (t : Bytes) : Prop where
  begins : ∃ b bs, t = b :: bs ∧ isSpace b = false ∧ b ≠ code ']'
  reads : ∀ rest, Ends rest → read (t ++ rest) = .ok (x, rest)

section Lists

variable {α : Type} {item : Read α} {x : α} {xs : List α} {limit : Nat} {first : Bool}
  {l text gap bs rest : Bytes}

theorem next_lead (hlead : Lead first l) (h : Takes item x text) :
    next first (l ++ (text ++ rest)) = .ok (.item (text ++ rest)) := by
  obtain ⟨b, bs, rfl, hspace, hclose⟩ := h.begins
  cases hlead with
  | first hgap =>
      rw [next, skipSpace_spacing hgap, List.cons_append, skipSpace_cons hspace]
      simp [hclose]
  | comma hgap hbefore =>
      rw [next, List.append_assoc, skipSpace_spacing hgap, List.cons_append,
        skipSpace_cons (by decide)]
      dsimp only
      rw [skipSpace_spacing hbefore, List.cons_append, skipSpace_cons hspace]
      simp [hclose, show code ',' ≠ code ']' by decide]

theorem next_close (first : Bool) (hgap : IsSpacing gap) :
    next first (gap ++ code ']' :: rest) = .ok (.close rest) := by
  rw [next, skipSpace_spacing hgap, skipSpace_cons (by decide)]
  simp

/-- What stands next in a list is the closing bracket, or what an item leads to. -/
theorem exists_of_next {n : Next} (h : next first bs = .ok n) :
    (∃ gap rest, n = .close rest ∧ IsSpacing gap ∧ bs = gap ++ code ']' :: rest)
      ∨ ∃ l text, n = .item text ∧ Lead first l ∧ bs = l ++ text := by
  revert h
  fun_cases next first bs with
  | case2 rest hspace =>
      rintro ⟨⟩
      obtain ⟨gap, hgap, hbs⟩ := exists_spacing_cons hspace
      exact .inl ⟨gap, rest, rfl, hgap, hbs⟩
  | case3 b rest hspace hclose hfirst =>
      rintro ⟨⟩
      obtain ⟨gap, hgap, hbs⟩ := exists_spacing_cons hspace
      exact .inr ⟨gap, _, rfl, hfirst ▸ .first hgap, hbs⟩
  | case6 rest hfirst c behind hbehind hclose hspace =>
      rintro ⟨⟩
      obtain ⟨gap, hgap, hbs⟩ := exists_spacing_cons hspace
      obtain ⟨before, hbefore, rfl⟩ := exists_spacing_cons hbehind
      obtain rfl : first = false := Bool.eq_false_iff.mpr hfirst
      refine .inr ⟨gap ++ code ',' :: before, _, rfl, .comma hgap hbefore, ?_⟩
      rw [hbs, List.append_assoc, List.cons_append]
  | case1 | case4 | case5 | case7 => rintro ⟨⟩

theorem items_close (item : Read α) (limit : Nat) (first : Bool) (hgap : IsSpacing gap) :
    items item (limit + 1) first (gap ++ code ']' :: rest) = .ok ([], rest) := by
  simp only [items, next_close first hgap, bind, Except.bind]
  rfl

/-- A row is read up to its closing bracket. -/
theorem items_row {written : α → Bytes → Prop} (hitem : ∀ x t, written x t → Takes item x t)
    {t : Bytes} (h : Row ']' written first xs t) (rest : Bytes) (hlimit : t.length < limit) :
    items item limit first (t ++ rest) = .ok (xs, rest) := by
  induction h generalizing limit with
  | close hgap =>
      obtain ⟨limit, rfl⟩ := Nat.exists_eq_add_of_lt hlimit
      rw [List.append_assoc]
      exact items_close item _ _ hgap
  | @item first x xs l t r hlead hx hrest ih =>
      obtain ⟨limit, rfl⟩ : ∃ n, limit = n + 1 := ⟨limit - 1, by omega⟩
      have htext := hitem x t hx
      obtain ⟨b, bs, rfl, -⟩ := htext.begins
      simp only [List.length_append, List.length_cons] at hlimit
      have hread := htext.reads (r ++ rest) (hrest.ends (.inl rfl) rest)
      have hothers := @ih limit (by omega)
      simp only [List.append_assoc, items, next_lead hlead htext, bind, Except.bind, hread, hothers]
      rfl

/-- Only a row is read as a list. -/
theorem exists_row_of_items {written : α → Bytes → Prop}
    (hitem : ∀ bs x rest, item bs = .ok (x, rest) →
      ∃ gap t, IsSpacing gap ∧ written x t ∧ bs = gap ++ t ++ rest)
    (h : items item limit first bs = .ok (xs, rest)) :
    ∃ t, Row ']' written first xs t ∧ bs = t ++ rest := by
  induction limit generalizing first bs xs with
  | zero => cases h
  | succ limit ih =>
      rw [items, bind_eq_ok] at h
      obtain ⟨n, hnext, hrest⟩ := h
      obtain ⟨gap, behind, rfl, hgap, rfl⟩ | ⟨l, text, rfl, hlead, rfl⟩ := exists_of_next hnext
      · cases hrest
        exact ⟨gap ++ [code ']'], .close hgap, by simp⟩
      · obtain ⟨⟨x, behind⟩, hx, hrest⟩ := bind_eq_ok.mp hrest
        obtain ⟨⟨others, _⟩, hothers, ⟨⟩⟩ := bind_eq_ok.mp hrest
        obtain ⟨gap, t, hgap, ht, rfl⟩ := hitem _ _ _ hx
        obtain ⟨r, hrow, rfl⟩ := ih hothers
        exact ⟨l ++ gap ++ t ++ r, .item (hlead.append hgap) ht hrow, by simp⟩

end Lists

/-! ## Objects -/

/-- A key with what stands behind it. -/
inductive Keyed {α : Type} (behind : α → Bytes → Prop) : String × α → Bytes → Prop where
  | key {key : String} {x : α} {k t : Bytes} (hkey : StringText key k) (h : behind x t) :
      Keyed behind (key, x) (k ++ t)

/-- One member after the other takes what has been gathered a step further. -/
inductive Steps {σ μ : Type} (step : σ → μ → σ → Prop) : σ → List μ → σ → Prop where
  | nil {g : σ} : Steps step g [] g
  | cons {g g' g'' : σ} {m : μ} {ms : List μ} (h : step g m g') (hs : Steps step g' ms g'') :
      Steps step g (m :: ms) g''

section Members

variable {σ α : Type} {member : σ → String → Read σ} {g g' : σ} {limit : Nat} {first : Bool}
  {gap l k bs rest : Bytes} {ms : List (String × α)} {behind : α → Bytes → Prop}

theorem members_close (member : σ → String → Read σ) (limit : Nat) (first : Bool) (g : σ)
    (hgap : IsSpacing gap) :
    members member (limit + 1) first g (gap ++ code '\x7d' :: rest) = .ok (g, rest) := by
  rw [members, skipSpace_spacing hgap, skipSpace_cons (by decide)]
  simp

/-- A key is read, and what stands behind it is left to the reader of members. -/
theorem members_lead (hlead : Lead first l) {key : String} (hkey : StringText key k) (bs : Bytes) :
    members member (limit + 1) first g (l ++ (k ++ bs)) = (do
      let (g', rest) ← member g key bs
      members member limit false g' rest) := by
  obtain ⟨hchars⟩ := hkey
  cases hlead with
  | first hgap =>
      rw [members, skipSpace_spacing hgap]
      simp only [List.cons_append, List.append_assoc, List.nil_append]
      rw [skipSpace_cons (by decide)]
      simp [string_append hchars, bind, Except.bind, show code '"' ≠ code '\x7d' by decide]
  | comma hgap hbefore =>
      rw [members, List.append_assoc, skipSpace_spacing hgap, List.cons_append,
        skipSpace_cons (by decide)]
      dsimp only
      rw [skipSpace_spacing hbefore]
      simp only [List.cons_append, List.append_assoc, List.nil_append]
      rw [skipSpace_cons (by decide)]
      simp [string_append hchars, bind, Except.bind, show code ',' ≠ code '\x7d' by decide]

theorem colon_append (hgap : IsSpacing gap) (rest : Bytes) :
    colon (gap ++ code ':' :: rest) = .ok rest := by
  rw [colon, skipSpace_spacing hgap, skipSpace_cons (by decide)]
  simp

theorem exists_of_colon (h : colon bs = .ok rest) :
    ∃ gap, IsSpacing gap ∧ bs = gap ++ code ':' :: rest := by
  revert h
  fun_cases colon bs with
  | case2 rest hspace =>
      rintro ⟨⟩
      exact exists_spacing_cons hspace
  | case1 | case3 => rintro ⟨⟩

/-- A row is read up to its closing brace, just if the reader takes its members one after
the other. -/
theorem members_row {step : σ → String × α → σ → Prop}
    (hmember : ∀ {g g' key x t rest rest'}, behind x t → Ends rest →
      (member g key (t ++ rest) = .ok (g', rest') ↔ step g (key, x) g' ∧ rest' = rest))
    {t : Bytes} (h : Row '\x7d' (Keyed behind) first ms t) (hlimit : t.length < limit)
    {rest rest' : Bytes} :
    members member limit first g (t ++ rest) = .ok (g', rest')
      ↔ Steps step g ms g' ∧ rest' = rest := by
  induction h generalizing limit g with
  | close hgap =>
      obtain ⟨limit, rfl⟩ := Nat.exists_eq_add_of_lt hlimit
      rw [List.append_assoc, List.singleton_append, members_close member _ _ g hgap]
      constructor
      · rintro ⟨⟩
        exact ⟨.nil, rfl⟩
      · rintro ⟨⟨⟩, rfl⟩
        rfl
  | @item first m ms l _ r hlead hm hrow ih =>
      obtain ⟨limit, rfl⟩ : ∃ n, limit = n + 1 := ⟨limit - 1, by omega⟩
      obtain @⟨key, x, k, t, hkey, ht⟩ := hm
      have hlength : r.length < limit := by
        obtain ⟨-⟩ := hkey
        simp only [List.length_append, List.length_cons] at hlimit
        omega
      simp only [List.append_assoc]
      rw [members_lead hlead hkey, bind_eq_ok]
      constructor
      · rintro ⟨⟨g₁, rest₁⟩, hread, hothers⟩
        obtain ⟨hstep, rfl⟩ := (hmember ht (hrow.ends (.inr rfl) rest)).mp hread
        obtain ⟨hsteps, rfl⟩ := (ih hlength).mp hothers
        exact ⟨.cons hstep hsteps, rfl⟩
      · rintro ⟨hsteps, rfl⟩
        cases hsteps with
        | @cons _ g₁ _ _ _ hstep hsteps =>
            exact ⟨(g₁, r ++ rest'), (hmember ht (hrow.ends (.inr rfl) rest')).mpr ⟨hstep, rfl⟩,
              (ih hlength).mpr ⟨hsteps, rfl⟩⟩

/-- What is left of an object is the closing brace, or what a key leads to. -/
theorem exists_of_members (h : members member (limit + 1) first g bs = .ok (g', rest)) :
    (∃ gap, IsSpacing gap ∧ bs = gap ++ code '\x7d' :: rest ∧ g' = g)
      ∨ ∃ l key k g₁ behind more, Lead first l ∧ StringText key k ∧ bs = l ++ (k ++ behind)
          ∧ member g key behind = .ok (g₁, more)
          ∧ members member limit false g₁ more = .ok (g', rest) := by
  -- behind the quote of a key
  have hkeyed : ∀ {text}, (string text >>= fun k => member g k.1 k.2 >>= fun g =>
      members member limit false g.1 g.2) = .ok (g', rest) →
      ∃ key k g₁ behind more, StringText key k ∧ code '"' :: text = k ++ behind
        ∧ member g key behind = .ok (g₁, more)
        ∧ members member limit false g₁ more = .ok (g', rest) := by
    intro text hread
    obtain ⟨⟨key, behind⟩, hkey, hread⟩ := bind_eq_ok.mp hread
    obtain ⟨⟨g₁, more⟩, hstep, hothers⟩ := bind_eq_ok.mp hread
    obtain ⟨k, hk, rfl⟩ := exists_of_string hkey
    exact ⟨key, _, g₁, behind, more, .quotes hk, by simp, hstep, hothers⟩
  rw [members] at h
  split at h
  · cases h
  next b text hspace =>
  obtain ⟨gap, hgap, rfl⟩ := exists_spacing_cons hspace
  split at h
  · next hclose =>
    cases h
    exact .inl ⟨gap, hgap, hclose ▸ rfl, rfl⟩
  split at h
  · next hfirst =>
    split at h
    · next hquote =>
      obtain ⟨key, k, g₁, behind, more, hk, htext, hread⟩ := hkeyed h
      refine .inr ⟨gap, key, k, g₁, behind, more, hfirst ▸ .first hgap, hk, ?_, hread⟩
      rw [hquote, htext]
    · cases h
  split at h
  · next hfirst hcomma =>
    obtain rfl : first = false := Bool.eq_false_iff.mpr hfirst
    split at h
    · cases h
    next c text hspace =>
    obtain ⟨before, hbefore, rfl⟩ := exists_spacing_cons hspace
    split at h
    · next hquote =>
      obtain ⟨key, k, g₁, behind, more, hk, htext, hread⟩ := hkeyed h
      refine .inr ⟨_, key, k, g₁, behind, more, .comma hgap hbefore, hk, ?_, hread⟩
      rw [hquote, htext, hcomma, List.append_assoc, List.cons_append]
    · split at h <;> cases h
  · cases h

/-- Only a row is read as an object. -/
theorem exists_row_of_members
    (hmember : ∀ {g g' key bs rest}, member g key bs = .ok (g', rest) →
      ∃ x t, behind x t ∧ bs = t ++ rest)
    (h : members member limit first g bs = .ok (g', rest)) :
    ∃ ms t, Row '\x7d' (Keyed behind) first ms t ∧ bs = t ++ rest := by
  induction limit generalizing first g bs with
  | zero => cases h
  | succ limit ih =>
      obtain ⟨gap, hgap, rfl, -⟩ | ⟨l, key, k, g₁, _, more, hlead, hk, rfl, hstep, hothers⟩ :=
        exists_of_members h
      · exact ⟨[], gap ++ [code '\x7d'], .close hgap, by simp⟩
      · obtain ⟨x, t, ht, rfl⟩ := hmember hstep
        obtain ⟨ms, r, hrow, rfl⟩ := ih hothers
        exact ⟨(key, x) :: ms, l ++ (k ++ t) ++ r, .item hlead (.key hk ht) hrow, by simp⟩

end Members

end TestTriage.Json
