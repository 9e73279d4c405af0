import TestTriage.CommandLine
import TestTriage.Proofs.Failing

/-!
# What a command line says

Arguments say one thing after the other: a value for an option, or that a
flag is raised. `Says` tells which arguments say what, however it is
written: an option by its name, its value behind an equals sign or in the
next argument, or by its letter, together with other letters. A value in an
argument of its own does not look like an option, so an argument that is a
flag is never taken for the value of another.

Arguments are read just if they say something and all of it can be taken, one
thing after the other (`read_eq_ok_iff`). A spelling fixes what is said: every
reading function is what taking the sayings yields (`readInto_eq`), errors
included.
-/

namespace TestTriage.CommandLine

/-! ## Sayings -/

/-- One thing that arguments say. -/
inductive Saying where
  | value (what : Valued) (value : String)
  | flag (flag : Flag)
  deriving Repr, DecidableEq

/-- What the letters behind a dash say, and the option at their end whose value is still to
come. -/
inductive LettersSay : List Char → List Saying → Option Valued → Prop where
  | nil : LettersSay [] [] none
  | flag {c : Char} {cs : List Char} {f : Flag} {said : List Saying} {waiting : Option Valued}
      (hc : lettered? c = some (.inr f)) (hcs : LettersSay cs said waiting) :
      LettersSay (c :: cs) (.flag f :: said) waiting
  | waiting {c : Char} {what : Valued} (hc : lettered? c = some (.inl what)) :
      LettersSay [c] [] (some what)
  | equals {c : Char} {what : Valued} {value : List Char}
      (hc : lettered? c = some (.inl what)) :
      LettersSay (c :: '=' :: value) [.value what (String.ofList value)] none
  | joined {c d : Char} {what : Valued} {value : List Char}
      (hc : lettered? c = some (.inl what)) (hd : d ≠ '=') :
      LettersSay (c :: d :: value) [.value what (String.ofList (d :: value))] none

/-- What one argument says, and the option whose value is to come in the next one. -/
inductive ArgumentSays : List Char → List Saying → Option Valued → Prop where
  | flag {name : List Char} {f : Flag} (h : named? (String.ofList name) = some (.inr f)) :
      ArgumentSays ('-' :: '-' :: name) [.flag f] none
  | waiting {name : List Char} {what : Valued}
      (h : named? (String.ofList name) = some (.inl what)) :
      ArgumentSays ('-' :: '-' :: name) [] (some what)
  | equals {name value : List Char} {what : Valued}
      (h : named? (String.ofList name) = some (.inl what)) :
      ArgumentSays ('-' :: '-' :: (name ++ '=' :: value)) [.value what (String.ofList value)] none
  | letters {c : Char} {cs : List Char} {said : List Saying} {waiting : Option Valued}
      (hc : c ≠ '-') (h : LettersSay (c :: cs) said waiting) :
      ArgumentSays ('-' :: c :: cs) said waiting

/-- What a list of arguments says. -/
inductive Says : List String → List Saying → Prop where
  | nil : Says [] []
  | dashes : Says ["--"] []
  | alone {argument : String} {rest : List String} {said others : List Saying}
      (h : ArgumentSays argument.toList said none) (hrest : Says rest others) :
      Says (argument :: rest) (said ++ others)
  | withNext {argument value : String} {rest : List String} {what : Valued}
      {said others : List Saying} (h : ArgumentSays argument.toList said (some what))
      (hvalue : isOption value.toList = false) (hrest : Says rest others) :
      Says (argument :: value :: rest) (said ++ .value what value :: others)

/-! ## Reading what is said -/

/-- The options with one thing more that is said. -/
def Options.take (o : Options) : Saying → Except Stop Options
  | .value what value => o.set what value
  | .flag f => o.raise f

/-- The options with all that is said. -/
def Options.takeAll (o : Options) (said : List Saying) : Except Stop Options :=
  said.foldlM Options.take o

variable {o o' : Options} {waiting : Option Valued}

theorem takeAll_cons (o : Options) (s : Saying) (said : List Saying) :
    o.takeAll (s :: said) = (o.take s).bind fun o₁ => o₁.takeAll said :=
  List.foldlM_cons

theorem takeAll_append (o : Options) (said others : List Saying) :
    o.takeAll (said ++ others) = (o.takeAll said).bind fun o₁ => o₁.takeAll others :=
  List.foldlM_append

theorem takeAll_singleton (o : Options) (s : Saying) : o.takeAll [s] = o.take s := by
  rw [takeAll_cons]
  cases o.take s <;> rfl

theorem exists_of_short {cs : List Char} (h : short o cs = .ok (o', waiting)) :
    ∃ said, LettersSay cs said waiting ∧ o.takeAll said = .ok o' := by
  fun_induction short o cs with
  | case1 o =>
      cases h
      exact ⟨[], .nil, rfl⟩
  | case2 o c cs hc => cases h
  | case3 o c cs flag hc ih =>
      obtain ⟨o₁, hraise, hrest⟩ := bind_eq_ok.mp h
      obtain ⟨said, hsaid, hall⟩ := ih o₁ hrest
      refine ⟨.flag flag :: said, .flag hc hsaid, ?_⟩
      rw [takeAll_cons, Options.take, hraise]
      exact hall
  | case4 o c what hc =>
      cases h
      exact ⟨[], .waiting hc, rfl⟩
  | case5 o c what value hc =>
      obtain ⟨o₁, hset, heq⟩ := bind_eq_ok.mp h
      cases heq
      exact ⟨_, .equals hc, (takeAll_singleton ..).trans hset⟩
  | case6 o c what value hne hequals hc =>
      obtain ⟨o₁, hset, heq⟩ := bind_eq_ok.mp h
      cases heq
      cases value with
      | nil => exact absurd rfl hne
      | cons d value =>
          have hd : d ≠ '=' := by
            rintro rfl
            exact hequals value rfl
          exact ⟨_, .joined hc hd, (takeAll_singleton ..).trans hset⟩

theorem exists_of_long_none {name : List Char}
    (h : long o (String.ofList name) none = .ok (o', waiting)) :
    ∃ said, ArgumentSays ('-' :: '-' :: name) said waiting ∧ o.takeAll said = .ok o' := by
  unfold long at h
  split at h
  · cases h
  · next heq => cases heq
  · next what hname heq =>
      cases h
      exact ⟨[], .waiting hname, rfl⟩
  · next heq => cases heq
  · next flag hname heq =>
      obtain ⟨o₁, hraise, heq⟩ := bind_eq_ok.mp h
      cases heq
      exact ⟨_, .flag hname, (takeAll_singleton ..).trans hraise⟩

theorem exists_of_long_some {name value : List Char}
    (h : long o (String.ofList name) (some (String.ofList value)) = .ok (o', waiting)) :
    ∃ said, ArgumentSays ('-' :: '-' :: (name ++ '=' :: value)) said waiting
      ∧ o.takeAll said = .ok o' := by
  unfold long at h
  split at h
  · cases h
  · next what v hname heq =>
      cases heq
      obtain ⟨o₁, hset, heq⟩ := bind_eq_ok.mp h
      cases heq
      exact ⟨_, .equals hname, (takeAll_singleton ..).trans hset⟩
  · next heq => cases heq
  · cases h
  · next heq => cases heq

theorem exists_of_step {argument : List Char} (h : step o argument = .ok (o', waiting)) :
    ∃ said, ArgumentSays argument said waiting ∧ o.takeAll said = .ok o' := by
  unfold step at h
  split at h
  · next cs =>
      have hcs := List.takeWhile_append_dropWhile (p := (· != '=')) (l := cs)
      have hequals := List.head?_dropWhile_not (· != '=') cs
      split at h
      · exact exists_of_long_none h
      · next d value hdrop =>
          rw [hdrop] at hcs hequals
          obtain rfl : d = '=' := by simpa using hequals
          obtain ⟨said, hsaid, hall⟩ := exists_of_long_some h
          exact ⟨said, hcs ▸ hsaid, hall⟩
  · next c cs hdash =>
      obtain ⟨said, hsaid, hall⟩ := exists_of_short h
      have hc : c ≠ '-' := by
        rintro rfl
        exact hdash rfl
      exact ⟨said, .letters hc hsaid, hall⟩
  · cases h

theorem exists_of_readInto {arguments : List String} (h : readInto o arguments = .ok o') :
    ∃ said, Says arguments said ∧ o.takeAll said = .ok o' := by
  fun_induction readInto o arguments with
  | case1 o =>
      cases h
      exact ⟨[], .nil, rfl⟩
  | case2 o rest hrest =>
      cases h
      obtain rfl := List.isEmpty_iff.mp hrest
      exact ⟨[], .dashes, rfl⟩
  | case3 | case4 | case6 | case7 | case8 => cases h
  | case5 o argument rest hdashes o₁ hstep ih =>
      obtain ⟨said, hsaid, hall⟩ := exists_of_step hstep
      obtain ⟨others, hothers, hrest⟩ := ih h
      refine ⟨said ++ others, .alone hsaid hothers, ?_⟩
      rw [takeAll_append, hall]
      exact hrest
  | case9 o argument hdashes o₁ what hstep value rest hvalue o₂ hset ih =>
      obtain ⟨said, hsaid, hall⟩ := exists_of_step hstep
      obtain ⟨others, hothers, hrest⟩ := ih h
      refine ⟨said ++ .value what value :: others,
        .withNext hsaid (by simpa using hvalue) hothers, ?_⟩
      rw [takeAll_append, hall, Except.bind, takeAll_cons, Options.take, hset]
      exact hrest

/-! ## Saying what is read -/

theorem ne_of_named? {name : List Char} {meaning : Valued ⊕ Flag}
    (h : named? (String.ofList name) = some meaning) : ∀ c ∈ name, (c != '=') = true := by
  have hknown : ∀ k ∈ known, k.name.toList.all (· != '=') = true := by decide
  obtain ⟨k, hk, -⟩ := Option.map_eq_some_iff.mp h
  have hname : k.name = String.ofList name := by simpa using List.find?_some hk
  have hall := hknown k (List.mem_of_find?_eq_some hk)
  rw [hname, String.toList_ofList] at hall
  exact List.all_eq_true.mp hall

theorem dropWhile_of_named? {name : List Char} {meaning : Valued ⊕ Flag}
    (h : named? (String.ofList name) = some meaning) (rest : List Char) :
    (name ++ rest).dropWhile (· != '=') = rest.dropWhile (· != '=') :=
  List.dropWhile_append_of_pos (ne_of_named? h)

theorem short_flag {c : Char} {cs : List Char} {f : Flag} (hc : lettered? c = some (.inr f)) :
    short o (c :: cs) = (o.raise f).bind fun o₁ => short o₁ cs := by
  conv => lhs; unfold short
  simp only [hc]
  rfl

theorem short_eq {cs : List Char} {said : List Saying} (h : LettersSay cs said waiting)
    (o : Options) : short o cs = (o.takeAll said).bind fun o' => .ok (o', waiting) := by
  induction h generalizing o with
  | nil => rfl
  | @flag c cs f said waiting hc _ ih =>
      rw [short_flag hc, takeAll_cons, Options.take]
      cases o.raise f with
      | error stop => rfl
      | ok o₁ => exact ih o₁
  | waiting hc =>
      simp only [short, hc]
      rfl
  | equals hc =>
      simp only [short, hc, takeAll_singleton]
      rfl
  | @joined c d what value hc hd =>
      rw [takeAll_singleton]
      unfold short
      simp only [hc]
      split
      · next heq => cases heq
      · next heq => cases heq
      · next heq => cases heq
      · next heq =>
          cases heq
          exact absurd rfl hd
      · next heq _ _ =>
          cases heq
          rfl

theorem step_eq {argument : List Char} {said : List Saying}
    (h : ArgumentSays argument said waiting) (o : Options) :
    step o argument = (o.takeAll said).bind fun o' => .ok (o', waiting) := by
  cases h with
  | @flag name f h =>
      have hdrop : name.dropWhile (· != '=') = [] := by
        simpa using dropWhile_of_named? h []
      simp only [step, hdrop, long, h, takeAll_singleton]
      rfl
  | @waiting name what h =>
      have hdrop : name.dropWhile (· != '=') = [] := by
        simpa using dropWhile_of_named? h []
      simp only [step, hdrop, long, h]
      rfl
  | @equals name value what h =>
      have hdrop : (name ++ '=' :: value).dropWhile (· != '=') = '=' :: value :=
        dropWhile_of_named? h _
      have htake : (name ++ '=' :: value).takeWhile (· != '=') = name := by
        rw [List.takeWhile_append_of_pos (ne_of_named? h)]
        simp
      simp only [step, hdrop, htake, long, h, takeAll_singleton]
      rfl
  | letters hc hcs =>
      rw [← short_eq hcs]
      simp only [step]

theorem not_dashes_says {said : List Saying} : ¬ArgumentSays ['-', '-'] said waiting := by
  have hnameless : named? (String.ofList []) = none := by decide
  generalize hdashes : ['-', '-'] = argument
  intro h
  cases h with
  | flag h | waiting h =>
      cases hdashes
      exact Option.some_ne_none _ (h.symm.trans hnameless)
  | equals h => simp at hdashes
  | letters hc =>
      cases hdashes
      exact hc rfl

theorem readInto_eq {arguments : List String} {said : List Saying} (h : Says arguments said)
    (o : Options) : readInto o arguments = o.takeAll said := by
  have hdashes : ∀ {argument : String} {said waiting}, ArgumentSays argument.toList said waiting →
      argument ≠ "--" := by
    rintro _ said waiting h rfl
    exact not_dashes_says h
  induction h generalizing o with
  | nil => rfl
  | dashes => rfl
  | @alone argument rest said others h _ ih =>
      rw [readInto, if_neg (hdashes h), step_eq h, takeAll_append]
      cases o.takeAll said with
      | error stop => rfl
      | ok o₁ => exact ih o₁
  | @withNext argument value rest what said others h hvalue _ ih =>
      rw [readInto, if_neg (hdashes h), step_eq h, takeAll_append]
      cases o.takeAll said with
      | error stop => rfl
      | ok o₁ =>
          simp only [Except.bind, hvalue, takeAll_cons, Options.take]
          cases o₁.set what value with
          | error stop => rfl
          | ok o₂ => exact ih o₂

/-- Options are read just when the arguments say something and all of it can be taken. -/
theorem read_eq_ok_iff {arguments : List String} :
    read arguments = .ok o ↔ ∃ said, Says arguments said ∧ Options.takeAll {} said = .ok o := by
  constructor
  · exact exists_of_readInto
  · rintro ⟨said, hsaid, hall⟩
    exact (readInto_eq hsaid {}).trans hall

end TestTriage.CommandLine
