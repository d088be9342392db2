import Iceee.Lib.Infix
import Iceee.Lib.Text

/-!
# Formulas in postfix form

The formulas of abilities are lists of tokens. `PreparePostfix` brings the operators behind their
operands with a stack, and `Evaluate` works on a stack of values.

## Main results

* `consume_spell`: what the tokens of an expression leave on the stack and in the output.
* `preparePostfix_exact`: the output evaluates to the value of the expression.

## Implementation notes

The top of a stack is the head of its list. Values are exact: the operators are functions on any
type of numbers, where the source prints each result with `%g`. The operators are those that
`isOperator` knows; `%`, `!` and `=` have a precedence and no token.
-/

namespace Iceee.Formula

open Lib Lib.Infix

/-! ### Tokens -/

def isNumber (token : Text) : Bool :=
  if token = ['-'] then false else token.all fun c => c.isDigit || c == '.' || c == '-'

def isVariable (test : Text) : Bool := test ≠ [] && test.all fun c => c.isAlpha || c == '_'

def isOperator (token : Text) : Bool :=
  match token with
  | [c] => c == '+' || c == '-' || c == '*' || c == '/'
  | _ => false

def isLeftParenthesis (token : Text) : Bool := token = ['(']

def isRightParenthesis (token : Text) : Bool := token = [')']

def getOperatorPrecedent : Char → Nat
  | '!' => 4
  | '*' | '/' | '%' => 3
  | '+' | '-' => 2
  | '=' => 1
  | _ => 0

def isLeftAssociative : Char → Bool
  | '*' | '/' | '%' | '+' | '-' => true
  | _ => false

def getArgCount : Char → Nat
  | '*' | '/' | '%' | '-' | '+' | '=' => 2
  | '!' => 1
  | _ => 0

/-- The first character of a token; an empty one begins with zero. -/
def firstChar (token : Text) : Char := token.headD (Char.ofNat 0)

/-- `peekTopOperator`. -/
def peekTopOperator (stack : List Text) : Char := firstChar (stack.headD [])

/-! ### `PreparePostfix` -/

/-- The stack of operators and the output. -/
structure Prepared where
  stack : List Text := []
  resultOutput : List Text := []

/-- Whether the operator on the stack goes to the output before `op1`. -/
def pops (op1 op2 : Char) : Bool :=
  (isLeftAssociative op1 && getOperatorPrecedent op1 ≤ getOperatorPrecedent op2) ||
    getOperatorPrecedent op1 < getOperatorPrecedent op2

/-- The loop for an operator. -/
def popOperators (op1 : Char) : List Text → List Text → Prepared
  | [], out => { stack := [], resultOutput := out }
  | top :: stack, out =>
      if peekTopOperator (top :: stack) ≠ Char.ofNat 0 ∧
          pops op1 (peekTopOperator (top :: stack)) then
        popOperators op1 stack (out ++ [top])
      else { stack := top :: stack, resultOutput := out }

/-- The loop for a right parenthesis. -/
def popParenthesis : List Text → List Text → Prepared
  | [], out => { stack := [], resultOutput := out }
  | top :: stack, out =>
      if isLeftParenthesis top then { stack, resultOutput := out }
      else popParenthesis stack (out ++ [top])

/-- What follows that loop. -/
def popRightParenthesis (p : Prepared) : Prepared :=
  match p.stack with
  | [] => p
  | top :: stack =>
      if isRightParenthesis top then { stack, resultOutput := p.resultOutput ++ [top] } else p

/-- One round of the loop over the tokens. -/
def consume (p : Prepared) (token : Text) : Prepared :=
  if isNumber token then { p with resultOutput := p.resultOutput ++ [token] }
  else if isVariable token then { p with resultOutput := p.resultOutput ++ [token] }
  else if isOperator token then
    let q := popOperators (firstChar token) p.stack p.resultOutput
    { q with stack := token :: q.stack }
  else if isLeftParenthesis token then { p with stack := token :: p.stack }
  else if isRightParenthesis token then popRightParenthesis (popParenthesis p.stack p.resultOutput)
  else p

/-- The last loop. -/
def flush : List Text → List Text → List Text
  | [], out => out
  | top :: stack, out => if isLeftParenthesis top then out else flush stack (out ++ [top])

def preparePostfix (inputTokens : List Text) : List Text :=
  let p := inputTokens.foldl consume {}
  flush p.stack p.resultOutput

/-! ### `Evaluate` -/

section Evaluate

variable {V : Type*} (apply : Char → V → V → V) (zero : V) (resolveValue : Text → V)

/-- The operands of an operator, with the rest of the stack; `none` if there are too few. -/
def takeOperands (op : Char) (stack : List V) : Option (V × V × List V) :=
  match getArgCount op, stack with
  | 2, right :: left :: stack => some (left, right, stack)
  | 1, left :: stack => some (left, zero, stack)
  | 0, stack => some (zero, zero, stack)
  | _, _ => none

/-- The loop of `Evaluate`. -/
def evaluateTokens : List Text → List V → Option (List V)
  | [], stack => some stack
  | token :: tokens, stack =>
      if isNumber token || isVariable token then
        evaluateTokens tokens (resolveValue token :: stack)
      else if isOperator token then
        match takeOperands zero (firstChar token) stack with
        | none => none
        | some (left, right, stack) =>
            evaluateTokens tokens (apply (firstChar token) left right :: stack)
      else evaluateTokens tokens stack

/-- `Evaluate`; the errors, which return zero, have no value. -/
def evaluate (postfixTokens : List Text) : Option V :=
  if postfixTokens.length = 0 then none
  else
    match evaluateTokens apply zero resolveValue postfixTokens [] with
    | some [value] => some value
    | _ => none

end Evaluate

/-! ### Well-formed formulas -/

/-- The tokens that are operands. -/
abbrev Operand := { token : Text // isNumber token ∨ isVariable token }

/-- The tokens that are operators. -/
abbrev Operator := { token : Text // isOperator token }

/-- The usual precedence: products and quotients bind tighter than sums and differences. -/
def Operator.prec (o : Operator) : ℕ := if o.1 = ['*'] ∨ o.1 = ['/'] then 1 else 0

/-- The tokens of a formula as texts. -/
def spell : Token Operand Operator → Text
  | .operand a => a.1
  | .op o => o.1
  | .left => ['(']
  | .right => [')']

theorem Operator.cases (o : Operator) : o.1 = ['+'] ∨ o.1 = ['-'] ∨ o.1 = ['*'] ∨ o.1 = ['/'] := by
  obtain ⟨token, h⟩ := o
  unfold isOperator at h
  split at h
  · simpa [or_assoc] using h
  · cases h

/-- What the functions of the class say about an operator. -/
structure IsBinary (token : Text) : Prop where
  notNumber : isNumber token = false
  notVariable : isVariable token = false
  notLeft : isLeftParenthesis token = false
  notRight : isRightParenthesis token = false
  nonzero : firstChar token ≠ Char.ofNat 0
  leftAssociative : isLeftAssociative (firstChar token) = true
  argCount : getArgCount (firstChar token) = 2

theorem Operator.isBinary (o : Operator) : IsBinary o.1 := by
  rcases o.cases with h | h | h | h <;> rw [h] <;> constructor <;> decide

/-- The numbers of `GetOperatorPrecedent` are in the usual order. -/
theorem Operator.getOperatorPrecedent_eq (o : Operator) :
    getOperatorPrecedent (firstChar o.1) = o.prec + 2 := by
  rcases o.cases with h | h | h | h <;> rw [Operator.prec, h] <;> rfl

/-- Two operators associate to the left. -/
theorem Operator.pops_iff (o o' : Operator) :
    pops (firstChar o.1) (firstChar o'.1) = true ↔ o.prec ≤ o'.prec := by
  rw [pops, o.isBinary.leftAssociative, Bool.true_and, Bool.or_eq_true, decide_eq_true_iff,
    decide_eq_true_iff, o.getOperatorPrecedent_eq, o'.getOperatorPrecedent_eq,
    Nat.add_le_add_iff_right, Nat.add_lt_add_iff_right]
  exact ⟨fun h => h.elim id le_of_lt, .inl⟩

/-! ### The stack of operators -/

/-- The operators as tokens. -/
def tokens (ops : List Operator) : List Text := ops.map Subtype.val

/-- The stack is empty, or on top of it is a parenthesis or an operator below a precedence. -/
def Below (p : ℕ) (stack : List Text) : Prop :=
  ∀ top ∈ stack.head?, top = ['('] ∨ ∃ o : Operator, top = o.1 ∧ o.prec < p

section Stack

variable {p : ℕ} {stack out : List Text} {o : Operator} {ops : List Operator}

theorem Below.mono {q : ℕ} (h : Below p stack) (hq : p ≤ q) : Below q stack := by
  intro top htop
  rcases h top htop with hleft | ⟨o, ho, hlt⟩
  · exact .inl hleft
  · exact .inr ⟨o, ho, hlt.trans_le hq⟩

theorem below_left (p : ℕ) (stack : List Text) : Below p (['('] :: stack) := by
  intro top htop
  cases htop
  exact .inl rfl

theorem below_operator (h : o.prec < p) : Below p (o.1 :: stack) := by
  intro top htop
  cases htop
  exact .inr ⟨o, rfl, h⟩

/-- The operators from a precedence on go to the output, and no others. -/
theorem popOperators_append (hops : ∀ o' ∈ ops, o.prec ≤ o'.prec) (hbelow : Below o.prec stack) :
    popOperators (firstChar o.1) (tokens ops ++ stack) out =
      { stack, resultOutput := out ++ tokens ops } := by
  induction ops generalizing out with
  | nil =>
      rw [tokens, List.map_nil, List.nil_append, List.append_nil]
      cases stack with
      | nil => rfl
      | cons top stack =>
          rw [popOperators, if_neg]
          rintro ⟨-, hpops⟩
          rcases hbelow top rfl with rfl | ⟨o', rfl, hlt⟩
          · have hlow : pops (firstChar o.1) '(' = false := by
              rcases o.cases with h | h | h | h <;> rw [h] <;> rfl
            exact Bool.false_ne_true (hlow.symm.trans hpops)
          · exact absurd ((o.pops_iff o').mp hpops) (not_le.mpr hlt)
  | cons o' ops ih =>
      rw [List.forall_mem_cons] at hops
      have hpops := (o.pops_iff o').mpr hops.1
      rw [tokens, List.map_cons, List.cons_append, popOperators,
        if_pos ⟨o'.isBinary.nonzero, hpops⟩]
      have hrest := @ih (out ++ [o'.1]) hops.2
      rw [tokens, List.append_assoc, List.singleton_append] at hrest
      exact hrest

theorem popParenthesis_append :
    popParenthesis (tokens ops ++ ['('] :: stack) out =
      { stack, resultOutput := out ++ tokens ops } := by
  induction ops generalizing out with
  | nil => rw [tokens, List.map_nil, List.nil_append, List.append_nil]; rfl
  | cons o ops ih =>
      have hnot : ¬isLeftParenthesis o.1 = true := by rw [o.isBinary.notLeft]; exact Bool.false_ne_true
      have hrest := @ih (out ++ [o.1])
      rw [tokens, List.append_assoc, List.singleton_append] at hrest
      rw [tokens, List.map_cons, List.cons_append, popParenthesis, if_neg hnot]
      exact hrest

/-- Under a parenthesis there is no right one. -/
theorem popRightParenthesis_eq (hbelow : Below p stack) :
    popRightParenthesis { stack, resultOutput := out } = { stack, resultOutput := out } := by
  cases stack with
  | nil => rfl
  | cons top stack =>
      have hnot : isRightParenthesis top = false := by
        rcases hbelow top rfl with rfl | ⟨o, rfl, -⟩
        · rfl
        · exact o.isBinary.notRight
      exact if_neg (by rw [hnot]; exact Bool.false_ne_true)

theorem flush_tokens (ops : List Operator) (out : List Text) :
    flush (tokens ops) out = out ++ tokens ops := by
  induction ops generalizing out with
  | nil => exact (List.append_nil out).symm
  | cons o ops ih =>
      have hnot : ¬isLeftParenthesis o.1 = true := by rw [o.isBinary.notLeft]; exact Bool.false_ne_true
      rw [tokens, List.map_cons, flush, if_neg hnot]
      have hrest := ih (out ++ [o.1])
      rw [List.append_assoc, List.singleton_append] at hrest
      exact hrest

theorem consume_operand (a : Operand) :
    consume { stack, resultOutput := out } a.1 = { stack, resultOutput := out ++ [a.1] } := by
  rw [consume]
  rcases a.2 with h | h
  · rw [if_pos h]
  · rw [if_pos h, ite_self]

theorem consume_operator (hops : ∀ o' ∈ ops, o.prec ≤ o'.prec) (hbelow : Below o.prec stack) :
    consume { stack := tokens ops ++ stack, resultOutput := out } o.1 =
      { stack := o.1 :: stack, resultOutput := out ++ tokens ops } := by
  have hbinary := o.isBinary
  rw [consume, hbinary.notNumber, hbinary.notVariable, o.2, popOperators_append hops hbelow]
  rfl

theorem consume_right (hbelow : Below p stack) :
    consume { stack := tokens ops ++ ['('] :: stack, resultOutput := out } [')'] =
      { stack, resultOutput := out ++ tokens ops } := by
  change popRightParenthesis (popParenthesis (tokens ops ++ ['('] :: stack) out) = _
  rw [popParenthesis_append, popRightParenthesis_eq hbelow]

end Stack

/-! ### Formulas in postfix form -/

/-- The postfix form of an expression is in the output and, from the top, on the stack, where only
operators of the expression's own precedence wait. -/
theorem consume_spell {p : ℕ} {ts : List (Token Operand Operator)} {t : Tree Operand Operator}
    (h : Parses Operator.prec p ts t) {stack : List Text} (out : List Text)
    (hbelow : Below p stack) :
    ∃ ops out', (ts.map spell).foldl consume { stack, resultOutput := out } =
        { stack := tokens ops ++ stack, resultOutput := out' } ∧
      out' ++ tokens ops = out ++ t.toPostfix.map spell ∧ ∀ o ∈ ops, p ≤ o.prec := by
  induction h generalizing stack out with
  | operand p a =>
      refine ⟨[], out ++ [a.1], consume_operand a, List.append_nil _, ?_⟩
      simp
  | @paren p ts t _ ih =>
      obtain ⟨ops, out', hrun, hout, -⟩ := ih out (below_left 0 stack)
      refine ⟨[], out ++ t.toPostfix.map spell, ?_, List.append_nil _, by simp⟩
      rw [List.map_cons, List.foldl_cons, List.map_append, List.foldl_append]
      change (([Token.right].map spell).foldl consume ((ts.map spell).foldl consume
        { stack := ['('] :: stack, resultOutput := out })) = _
      rw [hrun]
      change consume _ [')'] = _
      rw [consume_right hbelow, hout]
      rfl
  | @binary p o l r tl tr hp _ _ ihl ihr =>
      -- the operators of the left side bind at least as tight, those of the right side tighter
      obtain ⟨opsl, outl, hrunl, houtl, hopsl⟩ := ihl out (hbelow.mono hp)
      obtain ⟨opsr, outr, hrunr, houtr, hopsr⟩ := ihr (outl ++ tokens opsl)
        (show Below _ (o.1 :: stack) from below_operator (Nat.lt_succ_self _))
      refine ⟨opsr ++ [o], outr, ?_, ?_, ?_⟩
      · rw [List.map_append, List.foldl_append, hrunl, List.map_cons, List.foldl_cons]
        change (r.map spell).foldl consume (consume _ o.1) = _
        rw [consume_operator hopsl (hbelow.mono hp), hrunr, tokens, tokens, List.map_append,
          List.append_assoc]
        rfl
      · rw [tokens, List.map_append, ← List.append_assoc]
        change outr ++ tokens opsr ++ [o.1] = _
        rw [houtr, houtl, Tree.toPostfix, List.map_append, List.map_append]
        simp [spell]
      · intro o' ho'
        rcases List.mem_append.mp ho' with hmem | hmem
        · exact hp.trans ((Nat.le_succ _).trans (hopsr o' hmem))
        · rw [List.mem_singleton.mp hmem]
          exact hp

theorem preparePostfix_spell {ts : List (Token Operand Operator)} {t : Tree Operand Operator}
    (h : Parses Operator.prec 0 ts t) :
    preparePostfix (ts.map spell) = t.toPostfix.map spell := by
  obtain ⟨ops, out, hrun, hout, -⟩ := consume_spell h [] (show Below 0 [] by simp [Below])
  rw [List.append_nil] at hrun
  rw [preparePostfix, hrun, flush_tokens, hout, List.nil_append]

theorem Operand.not_isOperator (a : Operand) : isOperator a.1 = false := by
  rw [Bool.eq_false_iff]
  intro ho
  have hbinary := Operator.isBinary ⟨a.1, ho⟩
  have ha := a.2
  rw [hbinary.notNumber, hbinary.notVariable] at ha
  exact ha.elim Bool.false_ne_true Bool.false_ne_true

theorem Operator.not_isOperand (o : Operator) : ¬(isNumber o.1 ∨ isVariable o.1) := by
  rw [o.isBinary.notNumber, o.isBinary.notVariable]
  exact fun h => h.elim Bool.false_ne_true Bool.false_ne_true

/-- The token that a text is. -/
def unspell (text : Text) : Token Operand Operator :=
  if h : isNumber text ∨ isVariable text then .operand ⟨text, h⟩
  else if h : isOperator text then .op ⟨text, h⟩
  else if isLeftParenthesis text then .left
  else .right

theorem unspell_spell (token : Token Operand Operator) : unspell (spell token) = token := by
  cases token with
  | operand a => exact dif_pos a.2
  | op o => exact (dif_neg o.not_isOperand).trans (dif_pos o.2)
  | left => rfl
  | right => rfl

/-- An expression has one tree only. -/
theorem parses_unique {ts : List (Token Operand Operator)} {t t' : Tree Operand Operator}
    (h : Parses Operator.prec 0 ts t) (h' : Parses Operator.prec 0 ts t') : t' = t := by
  have hinj : Function.Injective spell := Function.LeftInverse.injective unspell_spell
  exact Tree.toPostfix_injective (List.map_injective_iff.mpr hinj
    ((preparePostfix_spell h').symm.trans (preparePostfix_spell h)))

section Values

variable {V : Type} (apply : Char → V → V → V) (zero : V) (resolveValue : Text → V)

/-- The value of a formula, from the values of its operands. -/
def valueOf (t : Tree Operand Operator) : V :=
  t.value (fun o => apply (firstChar o.1)) fun a => resolveValue a.1

theorem takeOperands_nil {op : Char} (h : getArgCount op = 2) : takeOperands zero op [] = none := by
  simp only [takeOperands, h]

theorem takeOperands_singleton {op : Char} (h : getArgCount op = 2) (value : V) :
    takeOperands zero op [value] = none := by
  simp only [takeOperands, h]

theorem takeOperands_cons_cons {op : Char} (h : getArgCount op = 2) (right left : V)
    (stack : List V) : takeOperands zero op (right :: left :: stack) = some (left, right, stack) := by
  simp only [takeOperands, h]

/-- On a postfix form the loop of `Evaluate` is the evaluation on a stack. -/
theorem evaluateTokens_spell {ts : List (Token Operand Operator)}
    (hts : ∀ token ∈ ts, (∃ a, token = .operand a) ∨ ∃ o, token = .op o) (stack : List V) :
    evaluateTokens apply zero resolveValue (ts.map spell) stack =
      Infix.evaluate (fun o : Operator => apply (firstChar o.1)) (fun a : Operand => resolveValue a.1)
        ts stack := by
  induction ts generalizing stack with
  | nil => rfl
  | cons token ts ih =>
      rw [List.forall_mem_cons] at hts
      rw [List.map_cons, evaluateTokens]
      rcases hts.1 with ⟨a, rfl⟩ | ⟨o, rfl⟩
      · rw [if_pos (by rw [Bool.or_eq_true]; exact a.2), ih hts.2]
        rfl
      · have hoperator : isOperator (spell (.op o)) = true := o.2
        have hbinary : getArgCount (firstChar (spell (.op o))) = 2 := o.isBinary.argCount
        rw [if_neg (by rw [Bool.or_eq_true]; exact o.not_isOperand), if_pos hoperator]
        match stack with
        | [] =>
            rw [takeOperands_nil zero hbinary]
            rfl
        | [_] =>
            rw [takeOperands_singleton zero hbinary]
            rfl
        | right :: left :: stack =>
            rw [takeOperands_cons_cons zero hbinary]
            exact ih hts.2 _

theorem evaluate_toPostfix (t : Tree Operand Operator) :
    evaluate apply zero resolveValue (t.toPostfix.map spell) =
      some (valueOf apply resolveValue t) := by
  have hrun : evaluateTokens apply zero resolveValue (t.toPostfix.map spell) [] =
      some [valueOf apply resolveValue t] := by
    rw [evaluateTokens_spell _ _ _ fun _ => Tree.mem_toPostfix, ← List.append_nil t.toPostfix,
      Infix.evaluate_toPostfix]
    rfl
  have hne : (t.toPostfix.map spell).length ≠ 0 := by
    cases t <;> simp [Tree.toPostfix]
  rw [evaluate, if_neg hne, hrun]

end Values

/-- The operands among the tokens. -/
def operandsOf (tokens : List Text) : List Text :=
  tokens.filter fun token => isNumber token || isVariable token

theorem operandsOf_spell (ts : List (Token Operand Operator)) :
    operandsOf (ts.map spell) = (ts.filterMap Token.operand?).map Subtype.val := by
  induction ts with
  | nil => rfl
  | cons token ts ih =>
      rw [operandsOf] at ih
      rw [List.map_cons, operandsOf, List.filter_cons, ih]
      cases token with
      | operand a =>
          rw [if_pos (by rw [Bool.or_eq_true]; exact a.2)]
          rfl
      | op o =>
          rw [if_neg (by rw [Bool.or_eq_true]; exact o.not_isOperand)]
          rfl
      | left => rfl
      | right => rfl

/-- A well-formed formula has one tree by precedence and associativity. Its postfix form has the
same operands in the same order, and evaluates to one value, that of the tree, whatever the operators
are. -/
theorem preparePostfix_exact {ts : List (Token Operand Operator)} (h : WellFormed ts) :
    ∃ t, Parses Operator.prec 0 ts t ∧ (∀ t', Parses Operator.prec 0 ts t' → t' = t) ∧
      operandsOf (preparePostfix (ts.map spell)) = operandsOf (ts.map spell) ∧
      ∀ (V : Type) (apply : Char → V → V → V) (zero : V) (resolveValue : Text → V),
        evaluate apply zero resolveValue (preparePostfix (ts.map spell)) =
          some (valueOf apply resolveValue t) := by
  obtain ⟨t, ht⟩ := h.exists_parses Operator.prec
  refine ⟨t, ht, fun t' ht' => parses_unique ht ht', ?_, fun V apply zero resolveValue => ?_⟩
  · rw [preparePostfix_spell ht, operandsOf_spell, operandsOf_spell, Tree.operands_toPostfix,
      ht.operands]
  · rw [preparePostfix_spell ht, evaluate_toPostfix]

/-- `2-(x-1)` -/
theorem preparePostfix_exact_difference :
    ∃ t, Parses Operator.prec 0 [.operand ⟨['2'], by decide⟩, .op ⟨['-'], by decide⟩, .left,
        .operand ⟨['x'], by decide⟩, .op ⟨['-'], by decide⟩, .operand ⟨['1'], by decide⟩, .right] t ∧
      evaluate (fun _ => Int.sub) 0 (fun token => if token = ['x'] then 7 else parseInt token)
          (preparePostfix [['2'], ['-'], ['('], ['x'], ['-'], ['1'], [')']]) =
        some (valueOf (fun _ => Int.sub)
          (fun token => if token = ['x'] then 7 else parseInt token) t) := by
  have hinner : WellFormed [Token.operand (⟨['x'], by decide⟩ : Operand),
      .op (⟨['-'], by decide⟩ : Operator), .operand ⟨['1'], by decide⟩] :=
    .binary (.operand _) _ (.operand _)
  obtain ⟨t, ht, -, -, hvalue⟩ := preparePostfix_exact
    (.binary (.operand (⟨['2'], by decide⟩ : Operand)) (⟨['-'], by decide⟩ : Operator) (.paren hinner))
  exact ⟨t, ht, hvalue Int _ 0 _⟩

example : preparePostfix [['2'], ['-'], ['('], ['x'], ['-'], ['1'], [')']] =
    [['2'], ['x'], ['1'], ['-'], ['-']] := by decide

end Iceee.Formula
