import TestTriage.Proofs.Go.RawStrings

/-!
# Types and terms keep raw strings apart

One lemma for each rule, over any reading of the goals that the rule is made
of (`Reading.Apart`). A type does not end with a raw string, so the tag of a
field may follow it; neither do parameters, blocks and the values of a
literal, which a bracket closes. A term may end with one, but what follows it
is an operator or a bracket.
-/

namespace TestTriage.Go

open Rule

/-- What rules may rely on about the goals they are made of. -/
structure Reading.Apart (sub : Reading) : Prop where
  type (gap : Gap) (first : Lexeme) : Rule.Apart false false (sub (.type gap first))
  parameters : Rule.Apart false false (sub .parameters)
  term (place : Place) (first : Lexeme) : Rule.Apart true first.isRaw (sub (.term place first))
  resume (place : Place) (x : Node) : Rule.Apart true true (sub (.resume place x))
  unary (place : Place) (first : Lexeme) : Rule.Apart true first.isRaw (sub (.unary place first))
  values : Rule.Apart false false (sub .values)
  block : Rule.Apart false false (sub .block)
  statement (first : Lexeme) : Rule.Apart true first.isRaw (sub (.statement first))

namespace Grammar

variable {sub : Reading} {limit : Nat} {gap : Gap} {place : Place} {before : Bool}

/-! ## Goals -/

section

variable (h : sub.Apart)
include h

theorem apart_type : Rule.Apart false before (sub.type gap) :=
  apart_bind (apart_token plain_startsType) fun _ => h.type gap _

theorem apart_term : Rule.Apart true false (sub.term place) :=
  apart_token_bind literal_startsTerm fun l _ => h.term place l

theorem apart_operandFrom (first : Lexeme) :
    Rule.Apart true first.isRaw (sub.operandFrom place first) :=
  apart_bind (h.term place first) fun _ => apart_bind apart_check fun _ => apart_done

theorem apart_operand : Rule.Apart true false (sub.operand place) :=
  apart_token_bind literal_startsTerm fun l _ => apart_operandFrom h l

/-! ## Types -/

theorem apart_typeArguments : Rule.Apart false false (typeArguments sub limit) :=
  apart_bind (apart_listUntil_plain (by decide) plain_startsType
    (fun l _ => (h.type _ l).weaken) limit) fun _ => apart_bind apart_check fun _ => apart_done

theorem apart_typeNameRest (name : Node) :
    Rule.Apart false false (typeNameRest sub limit gap name) :=
  apart_read (plain_is (by decide))
    (fun _ _ => apart_bind (apart_typeArguments h) fun _ => apart_done) apart_done

omit h in
theorem apart_qualified (package : Lexeme) : Rule.Apart false before (qualified package) :=
  apart_bind (apart_token plain_isIdentifier) fun _ => apart_done

theorem apart_typeName (name : Lexeme) : Rule.Apart false false (typeName sub limit gap name) :=
  apart_bind (apart_read (plain_is (by decide)) (fun _ _ => apart_qualified name) apart_done)
    fun _ => apart_typeNameRest h _

theorem apart_arrayType : Rule.Apart false false (arrayType sub gap) :=
  apart_read (plain_is (by decide)) (fun _ _ => apart_bind (apart_type h) fun _ => apart_done)
    (apart_bind (apart_operand h) fun _ => apart_bind (apart_expect (by decide)) fun _ =>
      apart_bind (apart_type h) fun _ => apart_done)

theorem apart_bracketAfterName (name : Lexeme) :
    Rule.Apart false false (bracketAfterName sub limit gap name) := by
  refine apart_read (plain_is (by decide))
    (fun _ _ => apart_bind (apart_type h) fun _ => apart_done)
    (apart_bind (apart_listUntil (by decide) literal_startsTerm
      (fun l _ _ => h.term .inside l) limit) fun terms => ?_)
  have hgeneric : Rule.Apart false false (do
      check (!terms.isEmpty && Node.allTypes terms)
      return Node.node .index (.token name :: terms)) :=
    apart_bind apart_check fun _ => apart_done
  split
  · exact apart_read plain_startsType (fun t _ => apart_bind apart_check fun _ =>
      apart_bind (h.type gap t) fun _ => apart_done) hgeneric
  · exact hgeneric

theorem apart_parameter (first : Lexeme) : Rule.Apart false false (parameter sub limit first) := by
  rw [parameter]
  split
  · exact apart_bind (apart_type h) fun _ => apart_done
  · split
    · refine apart_read ((plain_isOneOf (by decide)).or plain_startsType) (fun l _ => ?_) apart_done
      split
      · exact apart_bind (apart_type h) fun _ => apart_done
      · split
        · exact apart_bind (apart_qualified first) fun _ => apart_typeNameRest h _
        · split
          · exact apart_bracketAfterName h first
          · exact apart_bind (h.type _ l) fun _ => apart_done
    · exact h.type _ first

theorem apart_parameters : Rule.Apart false false (parameters sub limit) :=
  apart_bind (apart_listUntil_plain (by decide) ((plain_is (by decide)).or plain_startsType)
    (fun l _ => (apart_parameter h l).weaken) limit) fun _ => apart_done

theorem apart_parameterList : Rule.Apart false before (parameterList sub) :=
  apart_bind (apart_expect (by decide)) fun _ => h.parameters

theorem apart_result : Rule.Apart false false (result sub gap) := by
  refine apart_read plain_startsType (fun l _ => ?_) apart_done
  dsimp only
  split
  · exact apart_bind h.parameters fun _ => apart_done
  · exact apart_bind (h.type gap l) fun _ => apart_done

theorem apart_signature : Rule.Apart false before (signature sub gap) :=
  apart_bind (apart_parameterList h) fun _ => apart_bind (apart_result h) fun _ => apart_done

omit h in
theorem plain_startsConstraint : Plain startsConstraint :=
  (plain_is (by decide)).or plain_startsType

theorem apart_constraintElement (first : Lexeme) :
    Rule.Apart false false (constraintElement sub gap first) := by
  rw [constraintElement]
  split
  · exact apart_bind (apart_type h) fun _ => apart_done
  · exact h.type gap first

theorem apart_alternatives : Rule.Apart false false (alternatives sub limit gap) :=
  apart_many (plain_is (by decide)) (fun _ _ => apart_bind (apart_token plain_startsConstraint)
    fun l => apart_constraintElement h l) limit

theorem apart_constraint (first : Lexeme) :
    Rule.Apart false false (constraint sub limit gap first) :=
  apart_bind (apart_constraintElement h first) fun _ =>
    apart_bind (apart_alternatives h) fun _ => apart_done

theorem apart_typeParameters (pending : Bool) (count : Nat) :
    Rule.Apart false false (typeParameters sub limit pending count) := by
  induction count generalizing pending with
  | zero => exact apart_refuse
  | succ count ih =>
      refine apart_read plain_isIdentifier (fun name _ => ?_) ?_
      · refine apart_read plain_startsConstraint (fun l _ => ?_) ?_
        · refine apart_bind (apart_constraint h l) fun _ => ?_
          exact apart_read (plain_is (by decide))
            (fun _ _ => apart_bind (ih false) fun _ => apart_done)
            (apart_expect_done (by decide))
        · exact apart_bind (apart_expect (by decide)) fun _ =>
            apart_bind (ih true) fun _ => apart_done
      · exact apart_bind apart_check fun _ => apart_expect_done (by decide)

theorem apart_fieldNames (count : Nat) : Rule.Apart false before (fieldNames sub count) := by
  induction count generalizing before with
  | zero => exact apart_refuse
  | succ count ih =>
      refine apart_bind (apart_token plain_isIdentifier) fun _ => ?_
      exact apart_read (plain_is (by decide)) (fun _ _ => apart_bind ih fun _ => apart_done)
        (apart_bind (apart_type h) fun _ => apart_done)

theorem apart_fieldBody (first : Lexeme) : Rule.Apart false false (fieldBody sub limit first) := by
  rw [fieldBody]
  split
  · exact apart_bind (apart_token plain_isIdentifier) fun name =>
      apart_bind (apart_typeName h name) fun _ => apart_done
  · refine apart_read ((plain_isOneOf (by decide)).or plain_startsType) (fun l _ => ?_) apart_done
    split
    · exact apart_bind (apart_fieldNames h limit) fun _ => apart_done
    · split
      · exact apart_bind (apart_qualified first) fun _ => apart_typeNameRest h _
      · split
        · exact apart_bracketAfterName h first
        · exact apart_bind (h.type _ l) fun _ => apart_done

/-- The tag of a field stands behind a type. -/
theorem apart_field (first : Lexeme) : Rule.Apart true false (field sub limit first) :=
  apart_bind (apart_fieldBody h first) fun _ =>
    apart_read_literal literal_string (fun _ _ => apart_done_any) apart_done_any

theorem apart_interfaceElement (first : Lexeme) :
    Rule.Apart false false (interfaceElement sub limit first) := by
  rw [interfaceElement]
  split
  · exact apart_read (plain_is (by decide))
      (fun _ _ => apart_bind h.parameters fun _ => apart_bind (apart_result h) fun _ => apart_done)
      (apart_bind (apart_typeName h first) fun _ =>
        apart_bind (apart_alternatives h) fun _ => apart_done)
  · exact apart_constraint h first

omit h in
theorem apart_members {fits : Lexeme → Bool} {item : Lexeme → Rule Node} (hfits : Plain fits)
    (hitem : ∀ l, Rule.Apart true false (item l)) (count : Nat) :
    Rule.Apart false false (members fits item count) := by
  have hend : ∀ {before : Bool} {xs : List Node},
      Rule.Apart false before (do expect closeBrace; return xs) :=
    apart_expect_done (by decide)
  induction count with
  | zero => exact apart_refuse
  | succ count ih =>
      exact apart_read hfits (fun l _ => apart_bind (hitem l) fun _ =>
        apart_read plain_endsStatement (fun _ _ => apart_bind ih fun _ => apart_done) hend) hend

theorem apart_typeFrom (first : Lexeme) :
    Rule.Apart false false (typeFrom sub limit gap first) := by
  rw [typeFrom]
  split
  · exact apart_typeName h first
  · split
    case h_1 => exact apart_bind (apart_type h) fun _ => apart_done
    case h_2 =>
      exact apart_bind (apart_type h) fun _ => apart_expect_done (by decide)
    case h_3 => exact apart_arrayType h
    case h_4 =>
      exact apart_bind (apart_expect (by decide)) fun _ => apart_bind (apart_type h) fun _ =>
        apart_bind (apart_expect (by decide)) fun _ => apart_bind (apart_type h) fun _ => apart_done
    case h_5 =>
      refine apart_read ((plain_is (by decide)).or plain_startsType) (fun l _ => ?_) apart_refuse
      split
      · exact apart_bind (apart_type h) fun _ => apart_done
      · exact apart_bind (h.type gap l) fun _ => apart_done
    case h_6 =>
      exact apart_bind (apart_expect (by decide)) fun _ => apart_bind (apart_type h) fun _ =>
        apart_done
    case h_7 => exact apart_bind (apart_signature h) fun _ => apart_done
    case h_8 =>
      exact apart_bind (apart_expect (by decide)) fun _ =>
        apart_bind (apart_members (plain_isIdentifier.or (plain_is (by decide))) (apart_field h)
          limit) fun _ => apart_done
    case h_9 =>
      exact apart_bind (apart_expect (by decide)) fun _ =>
        apart_bind (apart_members plain_startsConstraint
          (fun l => (apart_interfaceElement h l).weaken) limit) fun _ => apart_done
    case h_10 => exact apart_refuse

/-! ## Terms -/

theorem apart_functionTerm : Rule.Apart false before (functionTerm sub place) := by
  refine apart_bind (apart_signature h) fun _ => apart_read (plain_is (by decide))
    (fun _ _ => apart_bind h.block fun _ => apart_done) ?_
  split
  · exact apart_refuse
  · exact apart_done

theorem apart_arrayTerm : Rule.Apart false false (arrayTerm sub) :=
  apart_read (plain_is (by decide)) (fun _ _ => apart_bind (apart_expect (by decide)) fun _ =>
    apart_bind (apart_type h) fun _ => apart_done) (apart_arrayType h)

theorem apart_parenthesized : Rule.Apart false false (parenthesized sub) :=
  apart_bind (apart_term h) fun _ => apart_bind apart_check fun _ => apart_expect_done (by decide)

theorem apart_primary (first : Lexeme) :
    Rule.Apart true first.isRaw (primary sub place first) := by
  rw [primary]
  split
  · exact apart_done_any
  · split
    · exact apart_done_any
    · split
      case h_1 htext => exact (apart_parenthesized h).weaken.of_text htext (by decide)
      case h_2 => exact (apart_functionTerm h).weaken
      case h_3 htext => exact (apart_arrayTerm h).weaken.of_text htext (by decide)
      case h_4 htext | h_5 htext | h_6 htext | h_7 htext =>
        exact (h.type .anyLine first).weaken.of_text htext (by decide)
      case h_8 => exact apart_refuse

theorem apart_sliceRest (parts : List Node) : Rule.Apart false false (sliceRest sub parts) :=
  apart_read_literal literal_startsTerm
    (fun t _ => apart_bind (apart_operandFrom h t) fun _ =>
      apart_read (plain_is (by decide))
        (fun _ _ => apart_bind (apart_operand h) fun _ => apart_expect_done (by decide))
        (apart_expect_done (by decide)))
    (apart_expect_done (by decide))

theorem apart_brackets (x : Node) : Rule.Apart false false (brackets sub limit x) := by
  refine apart_read (plain_is (by decide)) (fun _ _ => apart_sliceRest h [x])
    (apart_bind (apart_term h) fun _ => apart_bind apart_check fun _ =>
      apart_read ((plain_is (by decide)).or (plain_is (by decide))) (fun l _ => ?_)
        (apart_expect_done (by decide)))
  split
  · exact apart_bind apart_check fun _ => apart_sliceRest h _
  · exact apart_bind (apart_listUntil (by decide) literal_startsTerm
      (fun t _ _ => h.term .inside t) limit) fun _ => apart_bind apart_check fun _ => apart_done

theorem apart_argument (first : Lexeme) : Rule.Apart true first.isRaw (argument sub first) :=
  apart_bind (apart_operandFrom h first) fun _ =>
    apart_read (plain_is (by decide)) (fun _ _ => apart_done_any) apart_done_any

theorem apart_arguments : Rule.Apart false false (arguments sub limit) :=
  apart_listUntil (by decide) literal_startsTerm (fun l _ _ => apart_argument h l) limit

theorem apart_typeThenArguments : Rule.Apart false false (typeThenArguments sub limit) :=
  apart_read_literal literal_startsTerm
    (fun t _ => apart_bind (h.term .inside t) fun _ => apart_bind apart_check fun _ =>
      apart_read (plain_is (by decide))
        (fun _ _ => apart_bind (apart_listUntil (by decide) literal_startsTerm
          (fun l _ _ => apart_operandFrom h l) limit) fun _ => apart_done)
        (apart_expect_done (by decide)))
    (apart_expect_done (by decide))

theorem apart_call (callee : Node) : Rule.Apart false false (call sub limit callee) := by
  rw [call]
  split
  · refine apart_bind (apart_arguments h) fun xs => ?_
    split
    · exact apart_bind apart_check fun _ => apart_done
    · exact apart_refuse
  · split
    · exact apart_bind (apart_typeThenArguments h) fun _ => apart_done
    · refine apart_bind (apart_arguments h) fun xs => ?_
      split <;> exact apart_done

theorem apart_behindDot (x : Node) : Rule.Apart false before (behindDot sub x) := by
  refine apart_read (plain_isIdentifier.or (plain_is (by decide))) (fun l _ => ?_) apart_refuse
  split
  · exact apart_read (plain_is (by decide))
      (fun _ _ => (apart_expect_done (by decide)))
      (apart_bind (apart_type h) fun _ => apart_expect_done (by decide))
  · exact apart_done

theorem apart_suffix (x : Node) (l : Lexeme) : Rule.Apart false false (suffix sub limit x l) := by
  rw [suffix]
  split
  · exact apart_behindDot h x
  · exact apart_brackets h x
  · exact apart_call h x
  · exact apart_bind h.values fun _ => apart_done

omit h in
theorem plain_continues (x : Node) : Plain (continues place x) :=
  (((plain_is (by decide)).or (plain_is (by decide))).and_left.or
    (plain_is (by decide)).and_left).or (plain_is (by decide)).and_left

theorem apart_suffixes (x : Node) (count : Nat) :
    Rule.Apart true before (suffixes sub limit place x count) := by
  induction count generalizing x before with
  | zero => exact apart_refuse
  | succ count ih =>
      exact apart_read (plain_continues x)
        (fun l _ => apart_bind (apart_suffix h x l) fun y => ih y) apart_done_any

omit h in
theorem apart_unaryOf (operator : Lexeme) (x : Node) :
    Rule.Apart true before (unaryOf operator x) := by
  rw [unaryOf]
  split
  · exact apart_done_any
  · split
    · exact apart_done_any
    · exact apart_bind apart_check fun _ => apart_done_any

theorem apart_unary (first : Lexeme) :
    Rule.Apart true first.isRaw (unary sub limit place first) := by
  rw [unary]
  split
  · next hoperator =>
      rw [Lexeme.isRaw_of_isOneOf hoperator (by decide)]
      exact apart_token_bind literal_startsTerm fun t _ =>
        apart_bind (h.unary place t) fun x => apart_unaryOf first x
  · exact apart_bind (apart_primary h first) fun x => apart_suffixes h x limit

theorem apart_operatorsRest : Rule.Apart true true (operatorsRest sub limit place) :=
  apart_many (plain_isOneOf (by decide)) (fun _ _ => apart_token_bind literal_startsTerm
    fun t _ => apart_bind (h.unary place t) fun _ => apart_bind apart_check fun _ => apart_done)
    limit

theorem apart_binaryFrom (x : Node) : Rule.Apart true true (binaryFrom sub limit place x) := by
  rw [binaryFrom]
  split
  · refine apart_bind (apart_operatorsRest h) fun ys => ?_
    split <;> exact apart_done
  · exact apart_done

theorem apart_termFrom (first : Lexeme) :
    Rule.Apart true first.isRaw (termFrom sub limit place first) :=
  apart_bind (h.unary place first) fun x => apart_binaryFrom h x

theorem apart_resume (x : Node) : Rule.Apart true true (Grammar.resume sub limit place x) :=
  apart_bind (apart_suffixes h x limit) fun y => apart_binaryFrom h y

omit h in
theorem literal_startsValue : Literal startsValue :=
  (plain_is (by decide)).literal.or literal_startsTerm

theorem apart_value (first : Lexeme) : Rule.Apart true first.isRaw (value sub first) := by
  rw [value]
  split
  · next hbrace =>
      rw [Lexeme.isRaw_of_is hbrace (by decide)]
      exact h.values.weaken
  · exact apart_operandFrom h first

theorem apart_keyedValue (first : Lexeme) : Rule.Apart true first.isRaw (keyedValue sub first) :=
  apart_bind (apart_value h first) fun _ =>
    apart_read (plain_is (by decide)) (fun _ _ => apart_token_bind literal_startsValue
      fun l _ => apart_bind (apart_value h l) fun _ => apart_done) apart_done_any

theorem apart_values : Rule.Apart false false (values sub limit) :=
  apart_bind (apart_listUntil (by decide) literal_startsValue
    (fun l _ _ => apart_keyedValue h l) limit) fun _ => apart_done

end

end Grammar

end TestTriage.Go
