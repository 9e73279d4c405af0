import Mathlib.Data.List.Chain
import Mathlib.Data.List.TakeWhile
import TestTriage.Proofs.Go.Cutting

/-!
# Raw strings apart

A rule is safe with raw strings if it reads none right behind another and no
backquote that begins nothing (`Rule.Apart`). A rule does not see the token
in front of its own, so what is said of it takes whether that one may begin
with a backquote, and tells whether its last one may. With that the rules can
be put one behind another (`apart_bind`), and each way to build a rule from
others has one lemma here.

A token that is told by its text alone never begins with a backquote
(`Plain`); where a literal may stand too, what begins with one is a string
(`Literal`). What is safe in this sense comes out of every run of the rule
(`Apart.run`).
-/

namespace TestTriage.Go

/-! ## Lexemes that begin with a backquote -/

namespace Lexeme

/-- Does the text begin with a backquote? -/
def isRaw (l : Lexeme) : Bool := l.text.toList.head? == some '\x60'

/-- Only strings and stray characters begin with a backquote. -/
def Lawful (l : Lexeme) : Prop := l.isRaw = true → l.kind = .string ∨ l.kind = .stray

theorem isRaw_of_text {l : Lexeme} {text : String} (h : l.text = text)
    (htext : text.toList.head? ≠ some '\x60') : l.isRaw = false := by
  rw [isRaw, h]
  exact beq_eq_false_iff_ne.mpr htext

theorem isRaw_of_is {l : Lexeme} {text : String} (h : l.is text = true)
    (htext : text.toList.head? ≠ some '\x60') : l.isRaw = false :=
  isRaw_of_text (eq_of_beq h) htext

theorem isRaw_of_isOneOf {l : Lexeme} {texts : List String} (h : l.isOneOf texts = true)
    (htexts : ∀ t ∈ texts, t.toList.head? ≠ some '\x60') : l.isRaw = false :=
  isRaw_of_text rfl (htexts _ (List.contains_iff_mem.mp h))

theorem isRaw_of_kind {l : Lexeme} (hl : l.Lawful) (hstring : l.kind ≠ .string)
    (hstray : l.kind ≠ .stray) : l.isRaw = false :=
  Bool.eq_false_iff.mpr fun hraw => (hl hraw).elim hstring hstray

end Lexeme

/-- Nothing that fits begins with a backquote. -/
def Plain (fits : Lexeme → Bool) : Prop :=
  ∀ l : Lexeme, l.Lawful → fits l = true → l.isRaw = false

/-- What fits and begins with a backquote is a string. -/
def Literal (fits : Lexeme → Bool) : Prop :=
  ∀ l : Lexeme, l.Lawful → fits l = true → l.isRaw = true → l.kind = .string

section Fits

variable {fits fits' : Lexeme → Bool}

theorem Plain.literal (h : Plain fits) : Literal fits := fun l hl hfits hraw => by
  rw [h l hl hfits] at hraw
  cases hraw

theorem Plain.or (h : Plain fits) (h' : Plain fits') : Plain fun l => fits l || fits' l :=
  fun l hl hfits => ((Bool.or_eq_true _ _).mp hfits).elim (h l hl) (h' l hl)

theorem Literal.or (h : Literal fits) (h' : Literal fits') : Literal fun l => fits l || fits' l :=
  fun l hl hfits => ((Bool.or_eq_true _ _).mp hfits).elim (h l hl) (h' l hl)

theorem Plain.and_left (h : Plain fits) : Plain fun l => fits l && fits' l :=
  fun l hl hfits => h l hl ((Bool.and_eq_true _ _).mp hfits).1

theorem Plain.and_right (h : Plain fits') : Plain fun l => fits l && fits' l :=
  fun l hl hfits => h l hl ((Bool.and_eq_true _ _).mp hfits).2

theorem plain_is {text : String} (h : text.toList.head? ≠ some '\x60') : Plain (·.is text) :=
  fun _ _ hfits => Lexeme.isRaw_of_is hfits h

theorem plain_isOneOf {texts : List String} (h : ∀ t ∈ texts, t.toList.head? ≠ some '\x60') :
    Plain (·.isOneOf texts) :=
  fun _ _ hfits => Lexeme.isRaw_of_isOneOf hfits h

theorem plain_kind {kind : Lexeme.Kind} (hstring : kind ≠ .string) (hstray : kind ≠ .stray) :
    Plain (·.kind == kind) :=
  fun _ hl hfits => Lexeme.isRaw_of_kind hl (eq_of_beq hfits ▸ hstring) (eq_of_beq hfits ▸ hstray)

theorem plain_isIdentifier : Plain (·.isIdentifier) := plain_kind (by decide) (by decide)

theorem plain_startsType : Plain (·.startsType) :=
  plain_isIdentifier.or (plain_isOneOf (by decide))

theorem plain_endsStatement : Plain (·.endsStatement) :=
  (plain_kind (by decide) (by decide)).or (plain_is (by decide))

theorem literal_string : Literal (·.kind == .string) := fun _ _ hfits _ => eq_of_beq hfits

theorem literal_isLiteral : Literal (·.isLiteral) :=
  ((plain_kind (by decide) (by decide)).literal.or literal_string).or
    (plain_kind (by decide) (by decide)).literal

theorem literal_startsTerm : Literal (·.startsTerm) :=
  (plain_isIdentifier.literal.or literal_isLiteral).or (plain_isOneOf (by decide)).literal

end Fits

/-! ## Rules -/

namespace Rule

variable {α β : Type}

/-- However it goes, the rule reads no raw string right behind another and no stray
backquote. The token in front may begin with a backquote if `before`, and the last one
only if `after`. -/
def Apart (after : Bool) : (before : Bool) → Rule α → Prop
  | before, .done _ => before = true → after = true
  | _, .refuse _ => True
  | before, .read _ fits onFit otherwise =>
    (∀ l : Lexeme, l.Lawful → fits l = true →
      (l.isRaw = true → before = false ∧ l.kind = .string) ∧ Apart after l.isRaw (onFit l))
      ∧ Apart after before (otherwise ())

variable {after before middle : Bool} {gap : Gap} {fits : Lexeme → Bool}

theorem apart_refuse {wanted : Option String} :
    Apart after before (.refuse wanted : Rule α) := trivial

theorem apart_done {value : α} : Apart before before (.done value) := id

theorem apart_done_any {value : α} : Apart true before (.done value) := fun _ => rfl

/-- The token in front need not be one that begins with a backquote. -/
theorem Apart.plain {r : Rule α} (h : Apart after before r) : Apart after false r := by
  induction r generalizing before with
  | done value => exact nofun
  | refuse wanted => trivial
  | read gap fits onFit otherwise ihFit ihOtherwise =>
      exact ⟨fun l hl hfits => ⟨fun hraw => ⟨rfl, ((h.1 l hl hfits).1 hraw).2⟩, (h.1 l hl hfits).2⟩,
        ihOtherwise () h.2⟩

theorem Apart.any {r : Rule α} (h : Apart after true r) : Apart after before r := by
  cases before with
  | false => exact h.plain
  | true => exact h

theorem Apart.weaken {r : Rule α} (h : Apart after before r) : Apart true before r := by
  induction r generalizing before with
  | done value => exact fun _ => rfl
  | refuse wanted => trivial
  | read gap fits onFit otherwise ihFit ihOtherwise =>
      exact ⟨fun l hl hfits => ⟨(h.1 l hl hfits).1, ihFit l (h.1 l hl hfits).2⟩,
        ihOtherwise () h.2⟩

/-- A token that is told by its text does not begin with a backquote. -/
theorem Apart.of_text {r : Rule α} {l : Lexeme} {text : String} (h : Apart after false r)
    (htext : l.text = text) (hhead : text.toList.head? ≠ some '\x60') :
    Apart after l.isRaw r :=
  Lexeme.isRaw_of_text htext hhead ▸ h

/-- One rule behind another. -/
theorem apart_bind {r : Rule α} {next : α → Rule β} (h : Apart middle before r)
    (hnext : ∀ value, Apart after middle (next value)) : Apart after before (r >>= next) := by
  induction r generalizing before with
  | done value =>
      cases before with
      | false => exact (hnext value).plain
      | true => exact h rfl ▸ hnext value
  | refuse wanted => trivial
  | read gap fits onFit otherwise ihFit ihOtherwise =>
      exact ⟨fun l hl hfits => ⟨(h.1 l hl hfits).1, ihFit l (h.1 l hl hfits).2⟩,
        ihOtherwise () h.2⟩

/-- A token that cannot begin with a backquote may stand behind any other. -/
theorem apart_read {onFit : Lexeme → Rule α} {otherwise : Unit → Rule α} (hfits : Plain fits)
    (hfit : ∀ l, fits l = true → Apart after false (onFit l))
    (hotherwise : Apart after before (otherwise ())) :
    Apart after before (.read gap fits onFit otherwise) :=
  ⟨fun l hl hl' => by
    have hraw := hfits l hl hl'
    rw [hraw]
    exact ⟨nofun, hfit l hl'⟩, hotherwise⟩

/-- A literal may stand behind a token that does not begin with a backquote. -/
theorem apart_read_literal {onFit : Lexeme → Rule α} {otherwise : Unit → Rule α}
    (hfits : Literal fits) (hfit : ∀ l, fits l = true → Apart after l.isRaw (onFit l))
    (hotherwise : Apart after false (otherwise ())) :
    Apart after false (.read gap fits onFit otherwise) :=
  ⟨fun l hl hl' => ⟨fun hraw => ⟨rfl, hfits l hl hl' hraw⟩, hfit l hl'⟩, hotherwise⟩

theorem apart_token (hfits : Plain fits) {wanted : Option String} :
    Apart false before (token fits wanted) :=
  apart_read hfits (fun _ _ => apart_done) apart_refuse

/-- A token and what it begins. -/
theorem apart_token_bind {next : Lexeme → Rule α} (hfits : Literal fits) {wanted : Option String}
    (hnext : ∀ l, fits l = true → Apart after l.isRaw (next l)) :
    Apart after false (token fits wanted >>= next) :=
  apart_read_literal hfits hnext apart_refuse

theorem apart_expect {text : String} (h : text.toList.head? ≠ some '\x60') :
    Apart false before (expect text) :=
  apart_read (plain_is h) (fun _ _ => apart_done) apart_refuse

theorem apart_expect_done {text : String} {value : α}
    (h : text.toList.head? ≠ some '\x60') :
    Apart false before (do expect text; return value) :=
  apart_bind (apart_expect h) fun _ => apart_done

theorem apart_check {condition : Bool} : Apart before before (check condition) := by
  cases condition
  · exact apart_refuse
  · exact apart_done

/-- Items that plain tokens begin, as many as there are. -/
theorem apart_many {item : Lexeme → Rule α} (hfits : Plain fits)
    (hitem : ∀ l, fits l = true → Apart before false (item l)) (limit : Nat) :
    Apart before before (many gap fits item limit) := by
  have hbehind : ∀ reversed, Apart before before (manyBehind gap fits item limit reversed) := by
    induction limit with
    | zero => exact fun _ => apart_refuse
    | succ limit ih =>
        exact fun reversed => apart_read hfits
          (fun l hl => apart_bind (hitem l hl) fun _ => ih _) apart_done
  exact hbehind []

/-- Items that are parted by commas: the token behind the last one closes the list. -/
theorem apart_listUntil {close : String} {item : Lexeme → Rule α}
    (hclose : close.toList.head? ≠ some '\x60') (hfits : Literal fits)
    (hitem : ∀ l : Lexeme, l.Lawful → fits l = true → Apart true l.isRaw (item l)) (limit : Nat) :
    Apart false false (listUntil close fits item limit) := by
  have hend : ∀ {before : Bool} {xs : List α}, Apart false before (do expect close; return xs) :=
    apart_expect_done hclose
  have hbehind : ∀ reversed, Apart false false (listBehind close fits item limit reversed) := by
    induction limit with
    | zero => exact fun _ => apart_refuse
    | succ limit ih =>
        refine fun reversed => ⟨fun l hl hl' => ⟨fun hraw => ⟨rfl, hfits l hl hl' hraw⟩, ?_⟩, hend⟩
        exact apart_bind (hitem l hl hl') fun _ =>
          apart_read (plain_is (by decide)) (fun _ _ => ih _) hend
  exact hbehind []

theorem apart_listUntil_plain {close : String} {item : Lexeme → Rule α}
    (hclose : close.toList.head? ≠ some '\x60') (hfits : Plain fits)
    (hitem : ∀ l, fits l = true → Apart true false (item l)) (limit : Nat) :
    Apart false false (listUntil close fits item limit) :=
  apart_listUntil hclose hfits.literal (fun l hl hl' => hfits l hl hl' ▸ hitem l hl') limit

end Rule

/-! ## Runs -/

/-- No raw string stands right behind another, and no backquote is stray. -/
structure RawApart (ls : List Lexeme) : Prop where
  whole : ∀ l ∈ ls, l.isRaw = true → l.kind = .string
  apart : ls.IsChain fun l l' => l.isRaw = true → l'.isRaw = false

variable {first l : Lexeme} {ls gaps : List Lexeme}

theorem RawApart.cons (h : RawApart ls) (hwhole : first.isRaw = true → first.kind = .string)
    (hfirst : first.isRaw = true → ∀ l ∈ ls.head?, l.isRaw = false) : RawApart (first :: ls) :=
  ⟨List.forall_mem_cons.mpr ⟨hwhole, h.whole⟩,
    List.isChain_cons.mpr ⟨fun l hl hraw => hfirst hraw l hl, h.apart⟩⟩

/-- White space and comments may stand anywhere. -/
theorem RawApart.gaps_append (h : RawApart ls) (hgaps : ∀ g ∈ gaps, g.isRaw = false) :
    RawApart (gaps ++ ls) := by
  induction gaps with
  | nil => exact h
  | cons g gaps ih =>
      obtain ⟨hg, hgaps⟩ := List.forall_mem_cons.mp hgaps
      have hplain : g.isRaw ≠ true := by simp [hg]
      exact (ih hgaps).cons (fun hraw => absurd hraw hplain) fun hraw => absurd hraw hplain

theorem isRaw_of_passes {gap : Gap} {g : Lexeme} (hg : g.Lawful) (h : gap.passes g = true) :
    g.isRaw = false := by
  simp only [Gap.passes, Lexeme.isGap, Bool.or_eq_true, Bool.and_eq_true, beq_iff_eq] at h
  rcases h with (h | h) | ⟨-, h⟩ <;> exact Lexeme.isRaw_of_kind hg (by simp [h]) (by simp [h])

/-- What a rule reads keeps raw strings apart, and from the token in front too. -/
theorem Rule.Apart.run {α : Type} {after before : Bool} {r : Rule α} (h : Apart after before r)
    {rest : List Lexeme} {value : α} (hrun : r.run ls = .ok (value, rest))
    (hls : ∀ l ∈ ls, l.Lawful) (hwhole : first.isRaw = true → first.kind = .string)
    (hfirst : first.isRaw = true → before = true) :
    ∃ read, ls = read ++ rest ∧ RawApart (first :: read) := by
  induction r generalizing ls first before with
  | done value =>
      cases hrun
      exact ⟨[], rfl, by simpa using hwhole, .singleton _⟩
  | refuse wanted => cases hrun
  | read gap fits onFit otherwise ihFit ihOtherwise =>
      rw [Rule.run] at hrun
      split at hrun
      · exact ihOtherwise () h.2 hrun hls hwhole hfirst
      · next l later hskip =>
          split at hrun
          · next hfits =>
              have hsplit : ls = ls.takeWhile gap.passes ++ l :: later := by
                rw [← hskip, Gap.skip, List.takeWhile_append_dropWhile]
              have hlawful : ∀ m ∈ l :: later, m.Lawful := fun m hm =>
                hls m (hsplit ▸ List.mem_append_right _ hm)
              obtain ⟨hraw, happly⟩ := h.1 l (hlawful l List.mem_cons_self) hfits
              obtain ⟨read, rfl, hread⟩ := ihFit l happly hrun
                (fun m hm => hlawful m (List.mem_cons_of_mem _ hm)) (fun hl => (hraw hl).2) id
              have hgaps : ∀ g ∈ ls.takeWhile gap.passes, g.isRaw = false := fun g hg =>
                isRaw_of_passes (hls g (List.takeWhile_subset _ hg)) (List.mem_takeWhile_imp hg)
              refine ⟨ls.takeWhile gap.passes ++ l :: read, by simpa using hsplit,
                (hread.gaps_append hgaps).cons hwhole fun hf m hm => ?_⟩
              cases hskipped : ls.takeWhile gap.passes with
              | cons g gaps =>
                  rw [hskipped] at hm hgaps
                  exact Option.some.inj hm ▸ hgaps g List.mem_cons_self
              | nil =>
                  -- the token in front begins with a backquote, so this one does not
                  rw [hskipped] at hm
                  refine Bool.eq_false_iff.mpr fun hl => ?_
                  have hbefore := hfirst hf
                  rw [(hraw (Option.some.inj hm ▸ hl)).1] at hbefore
                  cases hbefore
          · exact ihOtherwise () h.2 hrun hls hwhole hfirst

end TestTriage.Go
