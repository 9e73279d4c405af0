import TestTriage.Proofs.Go.RawStrings.Terms

/-!
# The grammar keeps raw strings apart

A statement may end with a raw string, but what stands between two of them
is a line end or a semicolon. With the rules of the top level the grammar is
closed: no item has a raw string right behind another one (`apart_itemFrom`),
and none begins with a stray backquote (`kind_of_run_itemFrom`).
-/

namespace TestTriage.Go

open Rule

namespace Grammar

variable {sub : Reading} {limit : Nat} {place : Place} {before : Bool}

section

variable (h : sub.Apart)
include h

/-! ## Statements -/

theorem apart_moreOperands : Rule.Apart true true (moreOperands sub limit place) :=
  apart_many (plain_is (by decide)) (fun _ _ => apart_operand h) limit

theorem apart_operandsFrom (first : Lexeme) :
    Rule.Apart true first.isRaw (operandsFrom sub limit place first) :=
  apart_bind (apart_operandFrom h first) fun _ =>
    apart_bind (apart_moreOperands h) fun _ => apart_done

theorem apart_operands : Rule.Apart true false (operands sub limit place) :=
  apart_token_bind literal_startsTerm fun l _ => apart_operandsFrom h l

theorem apart_definition (left : List Node) :
    Rule.Apart true false (definition sub limit place left) := by
  refine apart_bind (apart_term h) fun x => ?_
  split
  · exact apart_done
  · exact apart_bind apart_check fun _ => apart_bind (apart_moreOperands h) fun _ => apart_done

theorem apart_assignment (ranges : Bool) (left : List Node) (operator : Lexeme) :
    Rule.Apart true false (assignment sub limit place ranges left operator) := by
  rw [assignment]
  split
  · exact apart_bind (apart_operands h) fun _ => apart_done
  · refine apart_read (Plain.and_right (plain_is (by decide)))
      (fun _ _ => apart_bind (apart_operand h) fun _ => apart_done) ?_
    split
    · exact apart_definition h left
    · exact apart_bind (apart_operands h) fun _ => apart_done

theorem apart_simpleFrom (ranges : Bool) (x : Node) :
    Rule.Apart true true (simpleFrom sub limit place ranges x) := by
  rw [simpleFrom]
  split
  · exact apart_done
  · refine apart_bind apart_check fun _ => apart_bind (apart_moreOperands h) fun _ => ?_
    refine apart_read ((plain_isOneOf (by decide)).or (plain_isOneOf (by decide)))
      (fun l _ => apart_assignment h ranges _ l) ?_
    refine apart_bind apart_check fun _ =>
      apart_read (plain_isOneOf (by decide)) (fun l _ => ?_) apart_done
    split
    · exact apart_bind (apart_operand h) fun _ => apart_done
    · exact apart_done_any

theorem apart_simple (ranges : Bool) (first : Lexeme) :
    Rule.Apart true first.isRaw (simple sub limit place ranges first) :=
  apart_bind (h.term place first) fun x => apart_simpleFrom h ranges x

omit h in
theorem literal_startsStatement : Literal startsStatement :=
  literal_startsTerm.or (plain_isOneOf (by decide)).literal

theorem apart_statements (count : Nat) : Rule.Apart true false (statements sub count) := by
  have hbehind : ∀ reversed, Rule.Apart true false (statementsBehind sub count reversed) := by
    induction count with
    | zero => exact fun _ => apart_refuse
    | succ count ih =>
        intro reversed
        refine apart_read_literal ((plain_is (by decide)).literal.or literal_startsStatement)
          (fun l _ => ?_) apart_done_any
        have hrest : ∀ s, Rule.Apart true true (.read .sameLine (·.endsStatement)
            (fun _ => statementsBehind sub count (s :: reversed))
            (fun _ => .done (s :: reversed).reverse)) := fun s =>
          apart_read plain_endsStatement (fun _ _ => ih _) apart_done
        dsimp only
        split
        · exact apart_bind apart_done_any hrest
        · exact apart_bind (h.statement l) hrest
  exact hbehind []

theorem apart_block : Rule.Apart false false (block sub limit) :=
  apart_bind (apart_statements h limit) fun _ => apart_expect_done (by decide)

theorem apart_blockWithBraces : Rule.Apart false before (blockWithBraces sub) :=
  apart_bind (apart_expect (by decide)) fun _ => h.block

theorem apart_ifStatement : Rule.Apart true false (ifStatement sub limit) := by
  refine apart_token_bind literal_startsTerm fun t _ => apart_bind (apart_simple h false t)
    fun first => apart_bind apart_check fun _ => ?_
  refine apart_bind (apart_read (plain_is (by decide))
    (fun _ _ => apart_bind (apart_operand h) fun _ => apart_done)
    (apart_bind apart_check fun _ => apart_done)) fun header => ?_
  refine apart_bind (apart_blockWithBraces h) fun body => ?_
  refine apart_read (plain_is (by decide)) (fun _ _ => ?_) apart_done_any
  refine apart_read ((plain_is (by decide)).or (plain_is (by decide))) (fun l _ => ?_) apart_refuse
  dsimp only
  split
  · next hif =>
      have hstatement := h.statement l
      rw [Lexeme.isRaw_of_is hif (by decide)] at hstatement
      exact apart_bind hstatement fun _ => apart_done
  · exact apart_bind h.block fun _ => apart_done_any

theorem apart_forRest : Rule.Apart true false (forRest sub limit) := by
  refine apart_bind (apart_read_literal literal_startsTerm
    (fun t _ => apart_bind (apart_operandFrom h t) fun _ => apart_done) apart_done_any)
    fun condition => apart_bind (apart_expect (by decide)) fun _ => ?_
  exact apart_bind (apart_read_literal literal_startsTerm
    (fun t _ => apart_bind (apart_simple h false t) fun _ => apart_bind apart_check fun _ =>
      apart_done) apart_done_any) fun _ => apart_done

theorem apart_forHeader : Rule.Apart true false (forHeader sub limit) := by
  refine apart_read_literal ((plain_isOneOf (by decide)).literal.or literal_startsTerm)
    (fun l _ => ?_) apart_done_any
  split
  · next hrange =>
      rw [Lexeme.isRaw_of_is hrange (by decide)]
      exact apart_bind (apart_operand h) fun _ => apart_done
  · split
    · next hsemicolon =>
        rw [Lexeme.isRaw_of_is hsemicolon (by decide)]
        exact apart_forRest h
    · refine apart_bind (apart_simple h true l) fun s => apart_bind apart_check fun _ => ?_
      split
      · exact apart_done
      · exact apart_read (plain_is (by decide))
          (fun _ _ => apart_bind (apart_forRest h) fun _ => apart_done)
          (apart_bind apart_check fun _ => apart_done)

theorem apart_forStatement : Rule.Apart false false (forStatement sub limit) :=
  apart_bind (apart_forHeader h) fun _ => apart_bind (apart_blockWithBraces h) fun _ => apart_done

theorem apart_caseTerms : Rule.Apart true false (caseTerms sub limit) :=
  apart_bind (apart_term h) fun _ => apart_bind (apart_many (plain_is (by decide))
    (fun _ _ => apart_term h) limit) fun _ => apart_done

theorem apart_clauses {head : Rule (List Node)} (hhead : Rule.Apart true false head) :
    Rule.Apart false false (clauses sub limit head) := by
  have hclause : ∀ l : Lexeme, Rule.Apart true false (do
      let parts ← if l.is "case" then head else .done []
      expect ":"
      return Node.node .clause (parts ++ (← statements sub limit))) := by
    intro l
    have hrest : ∀ parts : List Node, Rule.Apart true true (do
        expect ":"
        return Node.node .clause (parts ++ (← statements sub limit))) := fun parts =>
      apart_bind (apart_expect (by decide)) fun _ =>
        apart_bind (apart_statements h limit) fun _ => apart_done
    dsimp only
    split
    · exact apart_bind hhead hrest
    · exact apart_bind apart_done_any hrest
  -- a clause may end with a raw string, but the token behind it is a word or a brace
  exact apart_bind (apart_many ((plain_is (by decide)).or (plain_is (by decide)))
    (fun l _ => hclause l) limit).plain fun _ => apart_expect_done (by decide)

theorem apart_caseHead (types : Bool) : Rule.Apart true false (caseHead sub limit types) :=
  apart_bind (apart_caseTerms h) fun _ => apart_bind apart_check fun _ => apart_done

theorem apart_switchStatement : Rule.Apart false false (switchStatement sub limit) := by
  refine apart_bind (apart_read_literal literal_startsTerm (fun t _ => ?_)
    apart_done_any) fun header => ?_
  · refine apart_bind (apart_simple h false t) fun first => ?_
    exact apart_read (plain_is (by decide))
      (fun _ _ => apart_bind apart_check fun _ => apart_read_literal literal_startsTerm
        (fun t _ => apart_bind (apart_simple h false t) fun _ => apart_bind apart_check fun _ =>
          apart_done) apart_done_any)
      (apart_bind apart_check fun _ => apart_done)
  · exact apart_bind (apart_expect (by decide)) fun _ =>
      apart_bind (apart_clauses h (apart_caseHead h _)) fun _ => apart_done

theorem apart_communication : Rule.Apart true false (communication sub limit) :=
  apart_token_bind literal_startsTerm fun t _ => apart_bind (apart_simple h false t) fun _ =>
    apart_bind apart_check fun _ => apart_done

theorem apart_selectStatement : Rule.Apart false before (selectStatement sub limit) :=
  apart_bind (apart_expect (by decide)) fun _ =>
    apart_bind (apart_clauses h (apart_communication h)) fun _ => apart_done

omit h in
theorem apart_moreNames : Rule.Apart false false (moreNames limit) :=
  apart_many (plain_is (by decide))
    (fun _ _ => apart_bind (apart_token plain_isIdentifier) fun _ => apart_done) limit

theorem apart_varSpecification (first : Lexeme) :
    Rule.Apart true false (varSpecification sub limit first) := by
  refine apart_bind apart_moreNames fun names => ?_
  refine apart_read ((plain_is (by decide)).or plain_startsType) (fun l _ => ?_) apart_refuse
  split
  · exact apart_bind (apart_operands h) fun _ => apart_done
  · exact apart_bind (h.type .sameLine l) fun _ => apart_read (plain_is (by decide))
      (fun _ _ => apart_bind (apart_operands h) fun _ => apart_done) apart_done_any

theorem apart_constSpecification (first : Lexeme) :
    Rule.Apart true false (constSpecification sub limit first) := by
  refine apart_bind apart_moreNames fun names => ?_
  refine apart_read ((plain_is (by decide)).or plain_startsType) (fun l _ => ?_) apart_done_any
  split
  · exact apart_bind (apart_operands h) fun _ => apart_done
  · exact apart_bind (h.type .sameLine l) fun _ => apart_bind (apart_expect (by decide)) fun _ =>
      apart_bind (apart_operands h) fun _ => apart_done

theorem apart_definedType (parts : List Node) :
    Rule.Apart false before (definedType sub parts) := by
  refine apart_read ((plain_is (by decide)).or plain_startsType) (fun l _ => ?_) apart_refuse
  dsimp only
  split
  · exact apart_bind (apart_type h) fun _ => apart_done
  · exact apart_bind (h.type .sameLine l) fun _ => apart_done

theorem apart_parametersThenType (name parameter : Node) :
    Rule.Apart false before (parametersThenType sub limit name parameter) :=
  apart_bind (apart_read (plain_is (by decide)) (fun _ _ => apart_typeParameters h false limit)
    (apart_expect_done (by decide))) fun _ => apart_definedType h _

theorem apart_lengthThenType (name length : Node) :
    Rule.Apart false before (lengthThenType sub limit name length) :=
  apart_bind apart_check fun _ => apart_parametersThenType h name length

theorem apart_bracketedType (name : Node) :
    Rule.Apart false false (bracketedType sub limit name) := by
  refine apart_read_literal ((plain_is (by decide)).literal.or literal_startsTerm)
    (fun l _ => ?_) apart_refuse
  split
  · exact apart_bind (apart_type h) fun _ => apart_done
  · split
    · exact apart_bind (h.term .inside l) fun x => apart_lengthThenType h name x
    · refine apart_read ((plain_isOneOf (by decide)).or plain_startsConstraint.and_left)
        (fun m _ => ?_)
        (apart_bind (h.resume .inside (.token l)).any fun x => apart_lengthThenType h name x)
      split
      · exact apart_bind (apart_typeParameters h true limit) fun _ => apart_definedType h _
      · split
        · refine apart_bind (apart_bracketAfterName h l) fun x => ?_
          split
          · exact apart_bind (apart_alternatives h) fun _ => apart_parametersThenType h name _
          · exact apart_bind (h.resume .inside x).plain fun y => apart_lengthThenType h name y
        · exact apart_bind (apart_constraint h m) fun _ => apart_parametersThenType h name _

theorem apart_typeSpecification (name : Lexeme) :
    Rule.Apart false false (typeSpecification sub limit name) :=
  apart_read (plain_is (by decide)) (fun _ _ => apart_bracketedType h _) (apart_definedType h _)

omit h in
theorem apart_specifications {item : Lexeme → Rule Node}
    (hitem : ∀ l, Rule.Apart true false (item l)) (count : Nat) :
    Rule.Apart false false (specifications item count) := by
  induction count with
  | zero => exact apart_refuse
  | succ count ih =>
      exact apart_read plain_isIdentifier
        (fun name _ => apart_bind (hitem name) fun _ => apart_read plain_endsStatement
          (fun _ _ => apart_bind ih fun _ => apart_done) apart_refuse)
        (apart_expect_done (by decide))

omit h in
theorem apart_declaration (kind : Node.Kind) {item : Lexeme → Rule Node}
    (hitem : ∀ l, Rule.Apart true false (item l)) :
    Rule.Apart true false (declaration limit kind item) := by
  refine apart_read (plain_isIdentifier.or (plain_is (by decide))) (fun l _ => ?_) apart_refuse
  split
  · exact apart_bind (apart_specifications hitem limit) fun _ => apart_done_any
  · exact apart_bind (hitem l) fun _ => apart_done

theorem apart_labelled (name : Node) : Rule.Apart true false (labelled sub name) := by
  refine apart_read_literal ((plain_is (by decide)).literal.or literal_startsStatement)
    (fun l _ => ?_) apart_done_any
  dsimp only
  split
  · exact apart_bind apart_done fun _ => apart_done_any
  · exact apart_bind (h.statement l) fun _ => apart_done

theorem apart_simpleOrLabelled (x : Node) :
    Rule.Apart true true (simpleOrLabelled sub limit x) := by
  have hplain : Rule.Apart true true (simpleOrLabelled.plain sub limit x) :=
    apart_bind (apart_simpleFrom h false x) fun _ => apart_bind apart_check fun _ => apart_done
  rw [simpleOrLabelled]
  split
  · exact apart_read (plain_is (by decide)) (fun _ _ => apart_labelled h x) hplain
  · exact hplain

theorem apart_statement (first : Lexeme) :
    Rule.Apart true first.isRaw (statement sub limit first) := by
  have hbranch : Rule.Apart true false (.read .sameLine (·.isIdentifier)
      (fun name => .done (Node.node .branch [.token name]))
      (fun _ => .done (.node .branch []))) :=
    apart_read plain_isIdentifier (fun _ _ => apart_done_any) apart_done_any
  have honly : ∀ kind : Node.Kind, Rule.Apart true false (do
      return Node.node kind [← sub.operand .statement]) := fun _ =>
    apart_bind (apart_operand h) fun _ => apart_done
  rw [statement]
  split
  case h_1 htext =>
    exact (apart_declaration .varGroup (apart_varSpecification h)).of_text htext (by decide)
  case h_2 htext =>
    exact (apart_declaration .constGroup (apart_constSpecification h)).of_text htext (by decide)
  case h_3 htext =>
    exact (apart_declaration .typeGroup fun name =>
      (apart_typeSpecification h name).weaken).of_text htext (by decide)
  case h_4 htext =>
    refine Rule.Apart.of_text ?_ htext (by decide)
    exact apart_read_literal literal_startsTerm
      (fun t _ => apart_bind (apart_operandsFrom h t) fun _ => apart_done) apart_done_any
  case h_5 htext => exact (honly .goStatement).of_text htext (by decide)
  case h_6 htext => exact (honly .deferStatement).of_text htext (by decide)
  case h_7 htext => exact (apart_ifStatement h).of_text htext (by decide)
  case h_8 htext => exact (apart_forStatement h).weaken.of_text htext (by decide)
  case h_9 htext => exact (apart_switchStatement h).weaken.of_text htext (by decide)
  case h_10 htext => exact (apart_selectStatement h).weaken.of_text htext (by decide)
  case h_11 htext | h_12 htext => exact hbranch.of_text htext (by decide)
  case h_13 htext =>
    exact Rule.Apart.of_text
      (apart_bind (apart_token plain_isIdentifier) fun _ => apart_done_any) htext (by decide)
  case h_14 htext => exact Rule.Apart.of_text apart_done_any htext (by decide)
  case h_15 =>
    split
    · next hbrace =>
        rw [Lexeme.isRaw_of_is hbrace (by decide)]
        exact h.block.weaken
    · exact apart_bind (h.term .statement first) fun x => apart_simpleOrLabelled h x

/-! ## The top level -/

omit h in
theorem literal_startsImport : Literal startsImport :=
  (literal_string.or plain_isIdentifier.literal).or (plain_is (by decide)).literal

omit h in
/-- A name may stand in front of the path. -/
theorem apart_importPath {first : Lexeme} (hl : first.Lawful) (hfirst : startsImport first = true) :
    Rule.Apart true first.isRaw (importPath first) := by
  rw [importPath]
  split
  · exact apart_done_any
  · next hstring =>
      have hraw : first.isRaw = false := Bool.eq_false_iff.mpr fun hraw =>
        hstring (beq_iff_eq.mpr (literal_startsImport first hl hfirst hraw))
      rw [hraw]
      exact apart_token_bind literal_string fun _ _ => apart_done_any

omit h in
theorem apart_importPaths (count : Nat) : Rule.Apart false false (importPaths count) := by
  have hend : ∀ {before : Bool} {xs : List Node},
      Rule.Apart false before (do expect ")"; return xs) :=
    apart_expect_done (by decide)
  induction count with
  | zero => exact apart_refuse
  | succ count ih =>
      refine ⟨fun l hl hfits => ⟨fun hraw => ⟨rfl, literal_startsImport l hl hfits hraw⟩, ?_⟩, hend⟩
      exact apart_bind (apart_importPath hl hfits) fun _ =>
        apart_read plain_endsStatement (fun _ _ => apart_bind ih fun _ => apart_done) hend

omit h in
theorem apart_importDeclaration : Rule.Apart true false (importDeclaration limit) := by
  have hfits : Literal fun l => startsImport l || l.is "(" :=
    literal_startsImport.or (plain_is (by decide)).literal
  refine ⟨fun l hl hl' => ⟨fun hraw => ⟨rfl, hfits l hl hl' hraw⟩, ?_⟩, apart_refuse⟩
  dsimp only
  split
  · next hparen =>
      rw [Lexeme.isRaw_of_is hparen (by decide)]
      exact apart_bind (apart_importPaths limit) fun _ => apart_done_any
  · next hparen =>
      have hfirst : startsImport l = true := by simpa [hparen] using hl'
      exact apart_bind (apart_importPath hl hfirst) fun _ => apart_done

theorem apart_body : Rule.Apart false false (body sub) :=
  apart_read (plain_is (by decide)) (fun _ _ => apart_bind h.block fun _ => apart_done) apart_done

theorem apart_function (name : Lexeme) : Rule.Apart false false (function sub limit name) :=
  apart_bind (apart_read (plain_is (by decide))
    (fun _ _ => apart_bind (apart_typeParameters h false limit) fun _ =>
      apart_bind apart_check fun _ => apart_done) apart_done) fun _ =>
    apart_bind (apart_signature h) fun _ => apart_bind (apart_body h) fun _ => apart_done

theorem apart_method (receiver : Node) (name : Lexeme) :
    Rule.Apart false false (method sub receiver name) :=
  apart_bind h.parameters fun _ => apart_bind (apart_result h) fun _ =>
    apart_bind (apart_body h) fun _ => apart_done

theorem apart_literalStatement (parts : List Node) :
    Rule.Apart true false (literalStatement sub limit parts) :=
  apart_bind (apart_expect (by decide)) fun _ => apart_bind h.block fun _ =>
    apart_bind (h.resume .statement _).any fun x => apart_simpleOrLabelled h x

theorem apart_methodOrLiteral (first : Node) :
    Rule.Apart true false (methodOrLiteral sub limit first) := by
  refine apart_read plain_startsType (fun l _ => ?_) (apart_literalStatement h [first])
  split
  · exact apart_read (plain_is (by decide)) (fun _ _ => (apart_method h first l).weaken)
      (apart_bind (apart_typeName h l) fun _ => apart_literalStatement h _)
  · dsimp only
    split
    · exact apart_bind h.parameters fun _ => apart_literalStatement h _
    · exact apart_bind (h.type .anyLine l) fun _ => apart_literalStatement h _

theorem apart_functionItem : Rule.Apart true false (functionItem sub limit) := by
  refine apart_read (plain_isIdentifier.or (plain_is (by decide))) (fun l _ => ?_) apart_refuse
  split
  · exact apart_bind h.parameters fun first => apart_methodOrLiteral h first
  · exact (apart_function h l).weaken

theorem apart_item (first : Lexeme) : Rule.Apart true first.isRaw (item sub limit first) := by
  rw [item]
  split
  case h_1 htext =>
    exact Rule.Apart.of_text
      (apart_bind (apart_token plain_isIdentifier) fun _ => apart_done_any) htext (by decide)
  case h_2 htext => exact apart_importDeclaration.of_text htext (by decide)
  case h_3 htext => exact (apart_functionItem h).of_text htext (by decide)
  case h_4 =>
    exact apart_bind apart_check fun _ => apart_bind (h.statement first) fun _ =>
      apart_bind apart_check fun _ => apart_done

end

/-! ## The grammar, closed -/

theorem reading_apart (depth : Nat) : (reading depth).Apart := by
  induction depth with
  | zero => constructor <;> intros <;> exact apart_refuse
  | succ depth ih =>
      exact {
        type := fun _ first => apart_typeFrom ih first
        parameters := apart_parameters ih
        term := fun _ first => apart_termFrom ih first
        resume := fun _ x => apart_resume ih x
        unary := fun _ first => apart_unary ih first
        values := apart_values ih
        block := apart_block ih
        statement := fun first => apart_statement ih first }

theorem apart_itemFrom (first : Lexeme) : Rule.Apart true first.isRaw (itemFrom first) :=
  apart_item (reading_apart nestingLimit) first

/-- No item begins with a backquote that begins no string. -/
theorem kind_of_run_itemFrom {first : Lexeme} (hl : first.Lawful) {ls rest : List Lexeme}
    {tree : Node} (h : (itemFrom first).run ls = .ok (tree, rest)) (hraw : first.isRaw = true) :
    first.kind = .string := by
  have htext : ∀ {text : String}, first.text = text → text.toList.head? ≠ some '\x60' → False :=
    fun heq hhead => by
      rw [Lexeme.isRaw_of_text heq hhead] at hraw
      cases hraw
  rw [itemFrom, item] at h
  split at h
  case h_1 heq | h_2 heq | h_3 heq => exact (htext heq (by decide)).elim
  case h_4 =>
    cases hstarts : startsStatement first with
    | false =>
        rw [hstarts] at h
        cases h
    | true => exact literal_startsStatement first hl hstarts hraw

end Grammar

end TestTriage.Go
