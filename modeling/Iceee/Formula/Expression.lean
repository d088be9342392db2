import Iceee.Formula.Postfix
import Iceee.Lib.DoubleText
import Iceee.Lib.SingleBits

/-!
# The value of a formula

The text of an argument is broken into tokens, brought into postfix form once and evaluated with the
symbols of the moment. Every intermediate value is printed with `%g` and read again.

## Main results

* `tokenizeExpression_layout`: the tokens of an expression in which no minus sign stands directly in
  front of a number.
* `getEvaluation_exact`: a formula of whole numbers has its arithmetic value, unless a minus sign
  stands in front of a parenthesis: then its value is zero.

## Implementation notes

A text from a position on stands for the position. `%` and `!` have no branch in `compute`, as
`isOperator` knows neither. The symbols are a function, as `ResolveSymbol` reads the ability that is
processed. The log is left out.
-/

namespace Iceee.Formula

open Lib Lib.Infix

/-! ### `TokenizeExpression` -/

/-- The characters of `separator`. -/
def isSeparator (c : Char) : Bool :=
  ['+', '-', '*', '/', '(', ')', '!', '%', ',', ' ', '\t'].contains c

def isNumericChar (ch : Char) : Bool := ch.isDigit || ch == '.' || ch == '-'

/-- A number without a sign starts here. -/
def startsNumber (t : Text) : Bool := t.head?.any fun c => isNumericChar c && c != '-'

/-- `isNegativeNumber`, for the text from the minus sign on. -/
def isNegativeNumber (str : Text) : Bool := startsNumber (str.drop 1)

/-- The position of the first separator, or the length. -/
def findSeparator (t : Text) : ℕ := t.findIdx isSeparator

/-- `epos`, after the hack for negative numbers. -/
def tokenEnd (t : Text) : ℕ :=
  let epos := findSeparator t
  if (t.drop epos).head? = some '-' ∧ isNegativeNumber (t.drop epos) = true then
    epos + 1 + findSeparator (t.drop (epos + 1))
  else epos

/-- The loop of `TokenizeExpression`, with the number of rounds left. -/
def tokenizeLoop : ℕ → Text → List Text
  | 0, _ => []
  | _, [] => []
  | n + 1, c :: t =>
      let epos := tokenEnd (c :: t)
      if epos = 0 ∧ (c = ' ' ∨ c = '\t') then tokenizeLoop n t
      else (c :: t).take (max epos 1) :: tokenizeLoop n ((c :: t).drop (max epos 1))

def tokenizeExpression (expressionString : Text) : List Text :=
  tokenizeLoop expressionString.length expressionString

/-! ### `ExpandAssociativeTokens` -/

/-- A sign or an operand in front of a left parenthesis becomes a factor. -/
def expandAssociativeTokens : List Text → List Text
  | [] => []
  | [token] => [token]
  | token :: next :: rest =>
      if isLeftParenthesis next then
        if token = ['-'] then ['-', '1'] :: ['*'] :: expandAssociativeTokens (next :: rest)
        else if isVariable token || isNumber token then
          token :: ['*'] :: expandAssociativeTokens (next :: rest)
        else token :: expandAssociativeTokens (next :: rest)
      else token :: expandAssociativeTokens (next :: rest)

/-! ### `Evaluate` on texts -/

/-- `DoubleEquivalent`; 0.001 is the number nearest to it. -/
def doubleEquivalent (left right : Double) : Bool :=
  match left.sub right with
  | .finite q => |q| ≤ Double.nearest (1 / 1000)
  | _ => false

/-- The switch on the operator. -/
def compute (op : Char) (left right : Double) : Double :=
  match op with
  | '+' => left.add right
  | '-' => left.sub right
  | '*' => left.mul right
  | '/' => if doubleEquivalent right (.finite 0) then .finite 0 else left.div right
  | _ => .finite 0

section Evaluate

variable (resolveSymbol : Text → Double)

def resolveValue (value : Text) : Double :=
  if isNumber value then Double.atof value else resolveSymbol value

/-- What an operand puts on the stack. -/
def operandText (token : Text) : Text :=
  if isNumber token then token else (resolveValue resolveSymbol token).format

/-- What an operator puts on the stack. -/
def operatorText (op : Char) (left right : Text) : Text :=
  (compute op (resolveValue resolveSymbol left) (resolveValue resolveSymbol right)).format

def evaluateFormula (postfixTokens : List Text) : Double :=
  match evaluate (operatorText resolveSymbol) [] (operandText resolveSymbol) postfixTokens with
  | some value => Double.atof value
  | none => .finite 0

end Evaluate

/-- An ability function with its arguments and what was made of them. -/
structure AbilityFunction2 where
  mArguments : List Text
  mArgumentCache : List (List Text) := []
  mCached : Bool := false

namespace AbilityFunction2

variable (f : AbilityFunction2)

/-- The postfix form of an argument. -/
def prepare (argument : Text) : List Text :=
  preparePostfix (expandAssociativeTokens (tokenizeExpression argument))

/-- Fill the cache, unless it is filled. -/
def fillCache : AbilityFunction2 :=
  if f.mCached then f
  else
    let mArgumentCache :=
      if f.mArgumentCache.length < f.mArguments.length then
        f.mArgumentCache ++ List.replicate f.mArguments.length []
      else f.mArgumentCache
    { f with
      mArgumentCache := mArgumentCache.mapIdx fun i cached =>
        (f.mArguments[i]?.map prepare).getD cached
      mCached := true }

def getEvaluation (argIndex : ℕ) (symbolResolver : Text → Double) : Single × AbilityFunction2 :=
  if f.mArguments.length ≤ argIndex then (Single.ofDouble (.finite 0), f)
  else
    (Single.ofDouble (evaluateFormula symbolResolver (f.fillCache.mArgumentCache.getD argIndex [])),
      f.fillCache)

end AbilityFunction2

/-! ### Expressions as they are written -/

/-- A token and the blanks behind it. -/
abbrev Item := Token Operand Operator × Text

/-- The text of an expression. -/
def layout : List Item → Text
  | [] => []
  | (token, gap) :: items => spell token ++ (gap ++ layout items)

/-- The tokenizer finds a number or a name as it is. -/
def IsLexeme (token : Text) : Prop :=
  (token ≠ [] ∧ ∀ c ∈ token, isSeparator c = false) ∨
    ∃ d, token = '-' :: d ∧ startsNumber d = true ∧ ∀ c ∈ d, isSeparator c = false

/-- No minus sign stands directly in front of a number. -/
def Spaced (items : List Item) : Prop :=
  items.IsChain fun a b => spell a.1 = ['-'] → a.2 = [] → startsNumber (spell b.1) = false

/-- An expression that is written with blanks and tabs between its tokens. -/
structure Written (items : List Item) : Prop where
  lexemes : ∀ a, .operand a ∈ items.map Prod.fst → IsLexeme a.1
  gaps : ∀ item ∈ items, ∀ c ∈ item.2, c = ' ' ∨ c = '\t'
  spaced : Spaced items

/-- The number of minus signs in front of a left parenthesis. -/
def negations : List Text → ℕ
  | token :: next :: rest =>
      (if token = ['-'] ∧ isLeftParenthesis next = true then 1 else 0) + negations (next :: rest)
  | _ => 0

section Values

variable (resolveSymbol : Text → Double) (vars : Text → ℤ)

/-- A whole number. -/
def IsWhole (token : Text) : Prop :=
  ∃ d, d ≠ [] ∧ (∀ c ∈ d, c.isDigit) ∧ (token = d ∨ token = '-' :: d)

/-- The whole number that an operand stands for. -/
def wholeOperand (token : Text) : ℤ :=
  if isNumber token then parseInt token else vars token

/-- The operators on whole numbers; what is divided by zero is zero. -/
def wholeOperator (op : Char) (left right : ℤ) : ℤ :=
  match op with
  | '+' => left + right
  | '-' => left - right
  | '*' => left * right
  | '/' => left / right
  | _ => 0

/-- The arithmetic value of a formula. -/
def wholeValue (t : Tree Operand Operator) : ℤ :=
  valueOf wholeOperator (wholeOperand vars) t

/-- Whole numbers throughout: no quotient has a remainder, and whatever is printed has no more than
six digits. -/
def Whole : Tree Operand Operator → Prop
  | .leaf a =>
      if isNumber a.1 then IsWhole a.1 ∧ |parseInt a.1| < 2 ^ 53
      else resolveSymbol a.1 = .finite (vars a.1) ∧ |vars a.1| < 10 ^ 6
  | .node o l r =>
      Whole l ∧ Whole r ∧
        (firstChar o.1 = '/' → wholeValue vars r = 0 ∨
          wholeValue vars r ∣ wholeValue vars l) ∧
        |wholeValue vars (.node o l r)| < 10 ^ 6

end Values

/-! ### The tokenizer finds the tokens -/

section Tokenize

variable {token t : Text} {items : List Item}

theorem findSeparator_append (h : ∀ c ∈ token, isSeparator c = false)
    (ht : ∀ c ∈ t.head?, isSeparator c = true) : findSeparator (token ++ t) = token.length := by
  have hnone : ¬∃ c ∈ token, isSeparator c = true := by
    rintro ⟨c, hc, hsep⟩
    rw [h c hc] at hsep
    cases hsep
  have hrest : t.findIdx isSeparator = 0 := by
    cases t with
    | nil => rfl
    | cons c t => rw [List.findIdx_cons, ht c rfl]; rfl
  rw [findSeparator, List.findIdx_append, if_neg, hrest, Nat.zero_add]
  exact fun hlt => hnone (List.findIdx_lt_length.mp hlt)

/-- A token behind which `epos` ends up. -/
theorem tokenizeLoop_append {n : ℕ} (hne : token ≠ [])
    (hblank : ∀ c ∈ token.head?, c ≠ ' ' ∧ c ≠ '\t')
    (hend : max (tokenEnd (token ++ t)) 1 = token.length) :
    tokenizeLoop (n + 1) (token ++ t) = token :: tokenizeLoop n t := by
  obtain ⟨c, rest, rfl⟩ := List.exists_cons_of_ne_nil hne
  obtain ⟨hspace, htab⟩ := hblank c rfl
  rw [List.cons_append] at hend ⊢
  rw [tokenizeLoop]
  rw [if_neg fun h => h.2.elim hspace htab, hend, ← List.cons_append, List.take_left,
    List.drop_left]

theorem tokenizeLoop_blank {n : ℕ} {c : Char} (hc : c = ' ' ∨ c = '\t') :
    tokenizeLoop (n + 1) (c :: t) = tokenizeLoop n t := by
  have hend : tokenEnd (c :: t) = 0 := by
    have hfind : findSeparator (c :: t) = 0 := by
      rw [findSeparator, List.findIdx_cons]
      rcases hc with rfl | rfl <;> rfl
    rw [tokenEnd]
    rw [hfind, List.drop_zero, if_neg]
    rintro ⟨hminus, -⟩
    cases hminus
    exact absurd hc (by decide)
  rw [tokenizeLoop]
  rw [if_pos ⟨hend, hc⟩]

theorem tokenizeLoop_gap {gap : Text} (hgap : ∀ c ∈ gap, c = ' ' ∨ c = '\t') (n : ℕ) :
    tokenizeLoop (gap.length + n) (gap ++ t) = tokenizeLoop n t := by
  induction gap with
  | nil => rw [List.length_nil, Nat.zero_add]; rfl
  | cons c gap ih =>
      rw [List.forall_mem_cons] at hgap
      rw [List.length_cons, Nat.add_right_comm, List.cons_append, tokenizeLoop_blank hgap.1,
        ih hgap.2]

/-- What may follow a name or a number. -/
def Stops (t : Text) : Prop :=
  (∀ c ∈ t.head?, isSeparator c = true) ∧ ¬(t.head? = some '-' ∧ isNegativeNumber t = true)

theorem tokenEnd_lexeme (h : IsLexeme token) (ht : Stops t) :
    tokenEnd (token ++ t) = token.length := by
  rcases h with ⟨hne, hplain⟩ | ⟨d, rfl, hstart, hplain⟩
  · have hfind := findSeparator_append hplain ht.1
    rw [tokenEnd]
    rw [hfind, List.drop_left, if_neg ht.2]
  · have hfind : findSeparator ('-' :: d ++ t) = 0 := rfl
    have hnumber : startsNumber (d ++ t) = true := by
      cases d with
      | nil => cases hstart
      | cons c d => exact hstart
    rw [tokenEnd]
    rw [hfind, List.drop_zero, if_pos ⟨rfl, hnumber⟩]
    change 0 + 1 + findSeparator (d ++ t) = _
    rw [findSeparator_append hplain ht.1, List.length_cons, Nat.zero_add, Nat.add_comm]

theorem tokenEnd_separator {c : Char} (hc : isSeparator c = true)
    (ht : c = '-' → startsNumber t = false) : tokenEnd (c :: t) = 0 := by
  have hfind : findSeparator (c :: t) = 0 := by rw [findSeparator, List.findIdx_cons, hc]; rfl
  rw [tokenEnd]
  rw [hfind, List.drop_zero, if_neg]
  rintro ⟨hminus, hnumber⟩
  have hstart : startsNumber t = true := hnumber
  rw [ht (Option.some.inj hminus)] at hstart
  cases hstart

theorem startsNumber_blank {c : Char} (hc : c = ' ' ∨ c = '\t') :
    startsNumber (c :: t) = false := by
  rcases hc with rfl | rfl <;> rfl

theorem startsNumber_append (hne : token ≠ []) :
    startsNumber (token ++ t) = startsNumber token := by
  obtain ⟨c, rest, rfl⟩ := List.exists_cons_of_ne_nil hne
  rfl

theorem IsLexeme.ne_nil (h : IsLexeme token) : token ≠ [] := by
  rcases h with ⟨hne, -⟩ | ⟨d, rfl, -⟩
  · exact hne
  · exact List.cons_ne_nil _ _

theorem IsLexeme.not_blank (h : IsLexeme token) : ∀ c ∈ token.head?, c ≠ ' ' ∧ c ≠ '\t' := by
  rcases h with ⟨-, hplain⟩ | ⟨d, rfl, -⟩
  · intro c hc
    have hsep := hplain c (List.mem_of_mem_head? hc)
    constructor
    · rintro rfl
      cases hsep
    · rintro rfl
      cases hsep
  · rintro c hc
    cases hc
    decide

/-- A token that is no operand is one separator. -/
theorem spell_eq_singleton {token : Token Operand Operator} (h : ∀ a, token ≠ .operand a) :
    ∃ c, spell token = [c] ∧ isSeparator c = true ∧ c ≠ ' ' ∧ c ≠ '\t' := by
  cases token with
  | operand a => exact absurd rfl (h a)
  | op o => rcases o.cases with h | h | h | h <;> exact ⟨_, h, by decide⟩
  | left => exact ⟨'(', rfl, by decide⟩
  | right => exact ⟨')', rfl, by decide⟩

theorem Written.tail {item : Item} (h : Written (item :: items)) : Written items where
  lexemes a ha := h.lexemes a (List.mem_cons_of_mem _ ha)
  gaps a ha := h.gaps a (List.mem_cons_of_mem _ ha)
  spaced := List.IsChain.tail h.spaced

theorem Written.spell_ne_nil {item : Item} (h : Written (item :: items)) : spell item.1 ≠ [] := by
  by_cases ha : ∃ a, item.1 = .operand a
  · obtain ⟨a, ha⟩ := ha
    rw [ha]
    exact (h.lexemes a (ha ▸ List.mem_cons_self)).ne_nil
  · obtain ⟨c, hc, -⟩ := spell_eq_singleton fun a heq => ha ⟨a, heq⟩
    rw [hc]
    exact List.cons_ne_nil _ _

/-- No number starts behind a minus sign. -/
theorem Written.startsNumber_rest {item : Item} (h : Written (item :: items))
    (hminus : spell item.1 = ['-']) : startsNumber (item.2 ++ layout items) = false := by
  cases hgap : item.2 with
  | cons c gap =>
      exact startsNumber_blank (h.gaps item List.mem_cons_self c (hgap ▸ List.mem_cons_self))
  | nil =>
      cases items with
      | nil => rfl
      | cons next items =>
          have hnext := (List.isChain_cons_cons.mp h.spaced).1 hminus hgap
          rw [List.nil_append, layout, startsNumber_append h.tail.spell_ne_nil, hnext]

/-- A name or a number ends where the next token starts. -/
theorem Written.stops {item : Item} (h : Written (item :: items))
    (hnext : ∀ next ∈ items.head?, ∀ a, next.1 ≠ .operand a) : Stops (item.2 ++ layout items) := by
  cases hgap : item.2 with
  | cons c gap =>
      have hc := h.gaps item List.mem_cons_self c (hgap ▸ List.mem_cons_self)
      refine ⟨fun d hd => ?_, fun hminus => ?_⟩
      · cases hd
        rcases hc with rfl | rfl <;> rfl
      · cases hminus.1
        exact absurd hc (by decide)
  | nil =>
      cases items with
      | nil => exact ⟨fun c hc => (nomatch hc), fun hminus => (nomatch hminus.1)⟩
      | cons next items =>
          obtain ⟨c, hc, hsep, -⟩ := spell_eq_singleton (hnext next rfl)
          rw [List.nil_append, layout, hc]
          refine ⟨fun d hd => ?_, fun hminus => ?_⟩
          · cases hd
            exact hsep
          · cases hminus.1
            have hrest : startsNumber (next.2 ++ layout items) = true := hminus.2
            rw [h.tail.startsNumber_rest hc] at hrest
            cases hrest

/-- The tokenizer finds the tokens of an expression. -/
theorem tokenizeLoop_layout {n : ℕ} (hchain : (items.map Prod.fst).IsChain Token.Precedes)
    (h : Written items) (hn : (layout items).length ≤ n) :
    tokenizeLoop n (layout items) = items.map fun item => spell item.1 := by
  induction items generalizing n with
  | nil => cases n <;> rfl
  | cons item items ih =>
      have hne := h.spell_ne_nil
      have hlength := List.length_pos_of_ne_nil hne
      rw [layout, List.length_append, List.length_append] at hn
      obtain ⟨m, rfl⟩ : ∃ m, n = item.2.length + m + 1 := ⟨n - item.2.length - 1, by omega⟩
      have hend : max (tokenEnd (spell item.1 ++ (item.2 ++ layout items))) 1 =
          (spell item.1).length ∧ ∀ c ∈ (spell item.1).head?, c ≠ ' ' ∧ c ≠ '\t' := by
        by_cases ha : ∃ a, item.1 = .operand a
        · obtain ⟨a, ha⟩ := ha
          have hlex := h.lexemes a (ha ▸ List.mem_cons_self)
          have hspell : spell item.1 = a.1 := by rw [ha]; rfl
          have hnext : ∀ next ∈ items.head?, ∀ b, next.1 ≠ .operand b := by
            intro next hmem b hb
            cases items with
            | nil => cases hmem
            | cons _ _ =>
                cases hmem
                have hprecedes := (List.isChain_cons_cons.mp hchain).1
                rw [ha, hb] at hprecedes
                exact Bool.noConfusion (show true = false from hprecedes)
          rw [hspell] at hlength ⊢
          rw [tokenEnd_lexeme hlex (h.stops hnext)]
          exact ⟨max_eq_left hlength, hlex.not_blank⟩
        · obtain ⟨c, hc, hsep, hblank⟩ := spell_eq_singleton fun a heq => ha ⟨a, heq⟩
          have hzero := @tokenEnd_separator (item.2 ++ layout items) c hsep
            fun heq => h.startsNumber_rest (heq ▸ hc)
          rw [hc, List.singleton_append, hzero]
          refine ⟨rfl, fun d hd => ?_⟩
          cases hd
          exact hblank
      rw [layout, tokenizeLoop_append hne hend.2 hend.1,
        tokenizeLoop_gap (h.gaps item List.mem_cons_self), List.map_cons]
      exact congrArg _ (ih (List.IsChain.tail hchain) h.tail (by omega))

theorem tokenizeExpression_layout (hchain : (items.map Prod.fst).IsChain Token.Precedes)
    (h : Written items) :
    tokenizeExpression (layout items) = (items.map Prod.fst).map spell := by
  rw [tokenizeExpression, tokenizeLoop_layout hchain h le_rfl, List.map_map]
  rfl

end Tokenize

/-! ### What becomes of the signs -/

/-- A number or a name. -/
def isOperand (token : Text) : Bool := isNumber token || isVariable token

@[simp] theorem isOperand_spell_operand (a : Operand) : isOperand (spell (.operand a)) = true := by
  rw [isOperand, Bool.or_eq_true]
  exact a.2

@[simp] theorem isOperand_spell_op (o : Operator) : isOperand (spell (.op o)) = false := by
  rw [isOperand, Bool.eq_false_iff, ne_eq, Bool.or_eq_true]
  exact o.not_isOperand

theorem eq_left_of_isLeftParenthesis {token : Token Operand Operator}
    (h : isLeftParenthesis (spell token) = true) : token = .left := by
  have hspell : spell token = spell .left := of_decide_eq_true h
  rw [← unspell_spell token, hspell, unspell_spell]

section Expand

variable {ts : List (Token Operand Operator)}

/-- No operand stands in front of a left parenthesis. -/
theorem isOperand_of_precedes_left {token next : Token Operand Operator}
    (hprecedes : token.Precedes next) (hnext : isLeftParenthesis (spell next) = true) :
    isOperand (spell token) = false := by
  rw [eq_left_of_isLeftParenthesis hnext] at hprecedes
  cases token with
  | operand a => exact Bool.noConfusion (show true = false from hprecedes)
  | op o => exact isOperand_spell_op o
  | left => rfl
  | right => rfl

theorem expandAssociativeTokens_eq (hchain : ts.IsChain Token.Precedes)
    (h : negations (ts.map spell) = 0) : expandAssociativeTokens (ts.map spell) = ts.map spell := by
  induction ts with
  | nil => rfl
  | cons token ts ih =>
      cases ts with
      | nil => rfl
      | cons next ts =>
          rw [List.isChain_cons_cons] at hchain
          rw [List.map_cons, List.map_cons, negations, Nat.add_eq_zero_iff] at h
          have hrest := ih hchain.2 h.2
          rw [List.map_cons] at hrest
          rw [List.map_cons, List.map_cons, expandAssociativeTokens, hrest]
          split
          · next hleft =>
              have hnot := isOperand_of_precedes_left hchain.1 hleft
              rw [isOperand, Bool.or_comm] at hnot
              have hminus : spell token ≠ ['-'] := fun heq => by simp [heq, hleft] at h
              rw [if_neg hminus, hnot, if_neg Bool.false_ne_true]
          · rfl

/-- Every minus sign in front of a parenthesis becomes an operand, and its operator is a product. -/
theorem countP_expandAssociativeTokens (hchain : ts.IsChain Token.Precedes) :
    (expandAssociativeTokens (ts.map spell)).countP isOperand =
        (ts.map spell).countP isOperand + negations (ts.map spell) ∧
      (expandAssociativeTokens (ts.map spell)).countP isOperator =
        (ts.map spell).countP isOperator := by
  induction ts with
  | nil => exact ⟨rfl, rfl⟩
  | cons token ts ih =>
      cases ts with
      | nil => exact ⟨rfl, rfl⟩
      | cons next ts =>
          rw [List.isChain_cons_cons] at hchain
          obtain ⟨hoperands, hoperators⟩ := ih hchain.2
          simp only [List.map_cons] at hoperands hoperators
          rw [List.map_cons, List.map_cons, expandAssociativeTokens, negations]
          generalize spell next :: ts.map spell = rest at hoperands hoperators ⊢
          split
          · next hleft =>
              have hnot := isOperand_of_precedes_left hchain.1 hleft
              split
              · next hminus =>
                  have hone : isOperand ['-', '1'] = true := by decide
                  have hproduct : isOperand ['*'] = false ∧ isOperator ['*'] = true := by decide
                  have hsign : isOperator ['-', '1'] = false ∧ isOperator ['-'] = true := by decide
                  rw [hminus] at hnot ⊢
                  simp only [List.countP_cons, hoperands, hoperators, hone, hproduct, hnot, hsign,
                    hleft, and_self, and_true, if_true, Bool.false_eq_true, if_false]
                  omega
              · next hminus =>
                  have hnot' := hnot
                  rw [isOperand, Bool.or_comm] at hnot'
                  rw [hnot', if_neg Bool.false_ne_true, if_neg fun h => hminus h.1]
                  simp only [List.countP_cons, hoperands, hoperators, and_true]
                  omega
          · next hleft =>
              rw [if_neg fun h => hleft h.2]
              simp only [List.countP_cons, hoperands, hoperators, and_true]
              omega

/-- An expression has one operand more than operators. -/
theorem countP_spell {p : ℕ} {t : Tree Operand Operator} (h : Parses Operator.prec p ts t) :
    (ts.map spell).countP isOperand = (ts.map spell).countP isOperator + 1 := by
  induction h with
  | operand p a =>
      have hnot : isOperator (spell (.operand a)) = false := a.not_isOperator
      simp [hnot]
  | paren p _ ih =>
      have hleft : isOperand (spell .left) = false ∧ isOperator (spell .left) = false := by decide
      have hright : isOperand (spell .right) = false ∧ isOperator (spell .right) = false := by
        decide
      simp only [List.map_cons, List.map_append, List.countP_cons, List.countP_append, List.map_nil,
        List.countP_nil, hleft, hright, ih, Bool.false_eq_true, if_false]
  | @binary p o l r tl tr _ _ _ ihl ihr =>
      have hop : isOperator (spell (.op o)) = true := o.2
      simp only [List.map_cons, List.map_append, List.countP_cons, List.countP_append, hop,
        isOperand_spell_op, ihl, ihr, Bool.false_eq_true, if_false, if_true]
      omega

end Expand

/-! ### Too many values -/

/-- From one state of `PreparePostfix` to another one, tokens of the stack go to the output or are
lost. -/
structure Moves (p q : Prepared) : Prop where
  tally : ∀ P : Text → Bool, q.stack.countP P + q.resultOutput.countP P ≤
    p.stack.countP P + p.resultOutput.countP P
  grows : ∀ P : Text → Bool, p.resultOutput.countP P ≤ q.resultOutput.countP P

section Moves

variable {p q r : Prepared} {top : Text} {stack out : List Text}

theorem Moves.refl (p : Prepared) : Moves p p := ⟨fun _ => le_rfl, fun _ => le_rfl⟩

theorem Moves.trans (h : Moves p q) (h' : Moves q r) : Moves p r :=
  ⟨fun P => (h'.tally P).trans (h.tally P), fun P => (h.grows P).trans (h'.grows P)⟩

theorem Moves.pop (top : Text) (stack out : List Text) :
    Moves ⟨top :: stack, out⟩ ⟨stack, out ++ [top]⟩ := by
  constructor
  · intro P
    dsimp only
    rw [List.countP_append, List.countP_singleton, List.countP_cons]
    omega
  · intro P
    dsimp only
    rw [List.countP_append]
    exact Nat.le_add_right _ _

theorem Moves.drop (top : Text) (stack out : List Text) : Moves ⟨top :: stack, out⟩ ⟨stack, out⟩ :=
  ⟨fun _ => Nat.add_le_add_right ((List.sublist_cons_self top stack).countP_le) _, fun _ => le_rfl⟩

theorem moves_popOperators (op1 : Char) (stack out : List Text) :
    Moves ⟨stack, out⟩ (popOperators op1 stack out) := by
  induction stack generalizing out with
  | nil => exact .refl _
  | cons top stack ih =>
      rw [popOperators]
      split
      · exact (Moves.pop top stack out).trans (ih _)
      · exact .refl _

theorem moves_popParenthesis (stack out : List Text) :
    Moves ⟨stack, out⟩ (popParenthesis stack out) := by
  induction stack generalizing out with
  | nil => exact .refl _
  | cons top stack ih =>
      rw [popParenthesis]
      split
      · exact .drop top stack out
      · exact (Moves.pop top stack out).trans (ih _)

theorem moves_popRightParenthesis (p : Prepared) : Moves p (popRightParenthesis p) := by
  obtain ⟨stack, out⟩ := p
  cases stack with
  | nil => exact .refl _
  | cons top stack =>
      rw [popRightParenthesis]
      dsimp only
      split
      · exact .pop top stack out
      · exact .refl _

theorem moves_flush (stack out : List Text) : Moves ⟨stack, out⟩ ⟨[], flush stack out⟩ := by
  induction stack generalizing out with
  | nil => exact .refl _
  | cons top stack ih =>
      rw [flush]
      split
      · exact ⟨fun P => Nat.add_le_add_right (Nat.zero_le _) _, fun _ => le_rfl⟩
      · exact (Moves.pop top stack out).trans (ih _)

theorem Moves.cons (h : Moves p q) (top : Text) :
    Moves { p with stack := top :: p.stack } { q with stack := top :: q.stack } := by
  refine ⟨fun P => ?_, h.grows⟩
  have htally := h.tally P
  dsimp only
  rw [List.countP_cons, List.countP_cons]
  omega

/-- A token comes in on the stack. -/
theorem moves_consume (p : Prepared) (token : Text) :
    Moves { p with stack := token :: p.stack } (consume p token) := by
  rw [consume]
  split
  · exact .pop token p.stack p.resultOutput
  · split
    · exact .pop token p.stack p.resultOutput
    · split
      · exact (moves_popOperators (firstChar token) p.stack p.resultOutput).cons token
      · split
        · exact .refl _
        · split
          · exact (Moves.drop token p.stack p.resultOutput).trans
              ((moves_popParenthesis p.stack p.resultOutput).trans (moves_popRightParenthesis _))
          · exact .drop token p.stack p.resultOutput

/-- An operand goes to the output. -/
theorem countP_consume (p : Prepared) (token : Text) :
    p.resultOutput.countP isOperand + (if isOperand token then 1 else 0) ≤
      (consume p token).resultOutput.countP isOperand := by
  split
  · next hoperand =>
      have hconsume : consume p token = { p with resultOutput := p.resultOutput ++ [token] } :=
        consume_operand ⟨token, (Bool.or_eq_true _ _).mp hoperand⟩
      rw [hconsume, List.countP_append, List.countP_singleton, if_pos hoperand]
  · exact (moves_consume p token).grows isOperand

theorem countP_foldl_consume (inputTokens : List Text) (p : Prepared) :
    (inputTokens.foldl consume p).stack.countP isOperator +
          (inputTokens.foldl consume p).resultOutput.countP isOperator ≤
        p.stack.countP isOperator + p.resultOutput.countP isOperator +
          inputTokens.countP isOperator ∧
      p.resultOutput.countP isOperand + inputTokens.countP isOperand ≤
        (inputTokens.foldl consume p).resultOutput.countP isOperand := by
  induction inputTokens generalizing p with
  | nil => exact ⟨le_rfl, le_rfl⟩
  | cons token inputTokens ih =>
      have htally := (moves_consume p token).tally isOperator
      have hgrows := countP_consume p token
      have hrest := ih (consume p token)
      dsimp only at htally
      rw [List.countP_cons] at htally
      rw [List.foldl_cons, List.countP_cons, List.countP_cons]
      omega

/-- No operand is lost and no operator is new. -/
theorem countP_preparePostfix (inputTokens : List Text) :
    (preparePostfix inputTokens).countP isOperator ≤ inputTokens.countP isOperator ∧
      inputTokens.countP isOperand ≤ (preparePostfix inputTokens).countP isOperand := by
  obtain ⟨hoperators, hoperands⟩ := countP_foldl_consume inputTokens {}
  have hflush := moves_flush (inputTokens.foldl consume {}).stack
    (inputTokens.foldl consume {}).resultOutput
  have htally := hflush.tally isOperator
  have hgrows := hflush.grows isOperand
  simp only [List.countP_nil, Nat.zero_add] at hoperators hoperands htally hgrows
  exact ⟨htally.trans hoperators, hoperands.trans hgrows⟩

end Moves

section Evaluate

variable {V : Type} {apply : Char → V → V → V} {zero : V} {resolve : Text → V}

/-- Every operator takes two values and leaves one. -/
theorem length_evaluateTokens {ts : List Text} {stack stack' : List V}
    (h : evaluateTokens apply zero resolve ts stack = some stack') :
    stack.length + ts.countP isOperand ≤ stack'.length + ts.countP isOperator := by
  induction ts generalizing stack with
  | nil =>
      cases h
      exact le_rfl
  | cons token ts ih =>
      rw [evaluateTokens] at h
      rw [List.countP_cons, List.countP_cons]
      split at h
      · next hoperand =>
          have hrest := ih h
          rw [List.length_cons] at hrest
          rw [if_pos (show isOperand token = true from hoperand)]
          omega
      · next hoperand =>
          rw [if_neg (show ¬isOperand token = true from hoperand)]
          split at h
          · next hop =>
              have hbinary : getArgCount (firstChar token) = 2 :=
                (Operator.isBinary ⟨token, hop⟩).argCount
              rw [if_pos hop]
              rcases stack with _ | ⟨right, _ | ⟨left, stack⟩⟩
              · rw [takeOperands_nil zero hbinary] at h
                cases h
              · rw [takeOperands_singleton zero hbinary] at h
                cases h
              · rw [takeOperands_cons_cons zero hbinary] at h
                have hrest := ih h
                simp only [List.length_cons] at hrest ⊢
                omega
          · have hrest := ih h
            omega

/-- Where operands outnumber operators by more than one there is no value. -/
theorem evaluate_eq_none {ts : List Text} (h : ts.countP isOperator + 1 < ts.countP isOperand) :
    evaluate apply zero resolve ts = none := by
  rw [evaluate]
  split
  · rfl
  · split
    · next value hrun =>
        have hlength := length_evaluateTokens hrun
        rw [List.length_nil, List.length_singleton] at hlength
        omega
    · rfl

end Evaluate

theorem evaluate_negated {ts : List (Token Operand Operator)} {t : Tree Operand Operator}
    (h : Parses Operator.prec 0 ts t) (hneg : negations (ts.map spell) ≠ 0) {V : Type}
    {apply : Char → V → V → V} {zero : V} {resolve : Text → V} :
    evaluate apply zero resolve (preparePostfix (expandAssociativeTokens (ts.map spell))) =
      none := by
  obtain ⟨hoperands, hoperators⟩ := countP_expandAssociativeTokens h.isChain.1
  have hpostfix := countP_preparePostfix (expandAssociativeTokens (ts.map spell))
  have hcount := countP_spell h
  refine evaluate_eq_none ?_
  omega

/-! ### Whole numbers -/

section Whole

variable {token : Text} {n l r : ℤ}

theorem isNumber_printInt (n : ℤ) : isNumber (printInt n) = true := by
  have hne : printInt n ≠ ['-'] := by
    intro h
    have hread := parseInt_printInt n
    rw [h] at hread
    have hzero : n = 0 := hread.symm.trans (by decide)
    rw [hzero] at h
    exact absurd h (by decide)
  rw [isNumber, if_neg hne, List.all_eq_true]
  intro c hc
  rcases mem_printInt hc with h | rfl
  · simp [h]
  · rfl

theorem parseInt_digits {d : Text} (hne : d ≠ []) (hd : ∀ c ∈ d, c.isDigit) :
    parseInt d = parseNat d ∧ parseInt ('-' :: d) = -parseNat d := by
  refine ⟨?_, rfl⟩
  obtain ⟨c, rest, rfl⟩ := List.exists_cons_of_ne_nil hne
  have hc := hd c List.mem_cons_self
  rw [parseInt, List.dropWhile_cons_of_neg (by simp [not_isWhitespace_of_isDigit hc])]
  rw [parseSigned]
  · rintro t h
    cases h
    exact absurd hc (by decide)
  · rintro t h
    cases h
    exact absurd hc (by decide)

theorem IsWhole.atof (h : IsWhole token) : Double.atof token = Double.ofInt (parseInt token) := by
  obtain ⟨d, hne, hd, rfl | rfl⟩ := h
  · rw [(Double.atof_digits hne hd).1, (parseInt_digits hne hd).1]
  · rw [(Double.atof_digits hne hd).2, (parseInt_digits hne hd).2]

theorem ofRat_intCast (h : |n| < 2 ^ 53) : Double.ofRat n = .finite n := Double.isDouble_of_lt h

/-- Only zero is equivalent to zero. -/
theorem doubleEquivalent_zero (h : |n| < 2 ^ 53) :
    doubleEquivalent (.finite n) (.finite 0) = decide (n = 0) := by
  have hbounds : 0 ≤ Double.nearest (1 / 1000) ∧ Double.nearest (1 / 1000) < 1 := by decide +kernel
  have hsub : (Double.finite n).sub (.finite 0) = .finite n := by
    change Double.ofRat (n + -0) = _
    rw [neg_zero, add_zero, ofRat_intCast h]
  rw [doubleEquivalent, hsub]
  simp only [decide_eq_decide]
  constructor
  · intro hle
    have hlt : |(n : ℚ)| < 1 := hle.trans_lt hbounds.2
    exact Int.abs_lt_one_iff.mp (by exact_mod_cast hlt)
  · rintro rfl
    simpa using hbounds.1

/-- The operators are exact on whole numbers. -/
theorem compute_whole (o : Operator) (hr : |r| < 2 ^ 53)
    (hdiv : firstChar o.1 = '/' → r = 0 ∨ r ∣ l)
    (hv : |wholeOperator (firstChar o.1) l r| < 10 ^ 6) :
    compute (firstChar o.1) (.finite l) (.finite r) =
      .finite (wholeOperator (firstChar o.1) l r) := by
  rw [← ofRat_intCast (hv.trans (by norm_num))]
  rcases o.cases with h | h | h | h <;> rw [h] at hdiv ⊢
  · change Double.ofRat (l + r) = Double.ofRat ((l + r : ℤ) : ℚ)
    push_cast
    rfl
  · change Double.ofRat (l + -r) = Double.ofRat ((l - r : ℤ) : ℚ)
    push_cast
    rw [sub_eq_add_neg]
  · change Double.ofRat (l * r) = Double.ofRat ((l * r : ℤ) : ℚ)
    push_cast
    rfl
  · change (if doubleEquivalent (.finite r) (.finite 0) then Double.finite 0
      else Double.div (.finite l) (.finite r)) = Double.ofRat ((l / r : ℤ) : ℚ)
    rw [doubleEquivalent_zero hr]
    rcases hdiv rfl with rfl | hdvd
    · have hzero := @ofRat_intCast 0 (by norm_num)
      rw [Int.cast_zero] at hzero
      rw [Int.ediv_zero, Int.cast_zero, hzero]
      rfl
    · rcases eq_or_ne r 0 with rfl | hne
      · have hzero := @ofRat_intCast 0 (by norm_num)
        rw [Int.cast_zero] at hzero
        rw [Int.ediv_zero, Int.cast_zero, hzero]
        rfl
      · have hne' : (r : ℚ) ≠ 0 := Int.cast_ne_zero.mpr hne
        rw [decide_eq_false hne, if_neg Bool.false_ne_true, Int.cast_div hdvd hne', Double.div,
          if_neg hne']

end Whole

section Exact

variable {resolveSymbol : Text → Double} {vars : Text → ℤ} {t : Tree Operand Operator}

theorem Whole.lt (h : Whole resolveSymbol vars t) : |wholeValue vars t| < 2 ^ 53 := by
  cases t with
  | leaf a =>
      rw [Whole] at h
      change |wholeOperand vars a.1| < _
      rw [wholeOperand]
      split at h
      · next hnumber =>
          rw [if_pos hnumber]
          exact h.2
      · next hnumber =>
          rw [if_neg hnumber]
          exact h.2.trans (by norm_num)
  | node o l r => exact h.2.2.2.trans (by norm_num)

/-- What stands for the value of a whole number. -/
def Shows (text : Text) (n : ℤ) : Prop := isNumber text = true ∧ Double.atof text = .finite n

theorem shows_format {n : ℤ} (h : |n| < 10 ^ 6) : Shows (Double.format (.finite n)) n := by
  rw [Double.format_intCast h]
  exact ⟨isNumber_printInt n, (Double.atof_printInt n).trans
    (Double.isDouble_of_lt (h.trans (by norm_num)))⟩

theorem Shows.resolveValue {text : Text} {n : ℤ} (h : Shows text n) :
    resolveValue resolveSymbol text = .finite n := by
  rw [Formula.resolveValue, if_pos h.1, h.2]

/-- Every intermediate value is printed as it is. -/
theorem shows_valueOf (h : Whole resolveSymbol vars t) :
    Shows (valueOf (operatorText resolveSymbol) (operandText resolveSymbol) t)
      (wholeValue vars t) := by
  induction t with
  | leaf a =>
      have hlt := h.lt
      change Shows (operandText resolveSymbol a.1) (wholeOperand vars a.1)
      change |wholeOperand vars a.1| < _ at hlt
      rw [Whole] at h
      rw [wholeOperand] at hlt ⊢
      rw [operandText]
      split at h
      · next hnumber =>
          rw [if_pos hnumber] at hlt ⊢
          rw [if_pos hnumber]
          exact ⟨hnumber, h.1.atof.trans (Double.isDouble_of_lt hlt)⟩
      · next hnumber =>
          rw [if_neg hnumber, if_neg hnumber, Formula.resolveValue, if_neg hnumber, h.1]
          exact shows_format h.2
  | node o l r ihl ihr =>
      obtain ⟨hl, hr, hdiv, hv⟩ := h
      change Shows (operatorText resolveSymbol (firstChar o.1)
        (valueOf (operatorText resolveSymbol) (operandText resolveSymbol) l)
        (valueOf (operatorText resolveSymbol) (operandText resolveSymbol) r)) _
      rw [operatorText, (ihl hl).resolveValue, (ihr hr).resolveValue]
      rw [compute_whole o hr.lt hdiv hv]
      exact shows_format hv

theorem evaluateFormula_whole (h : Whole resolveSymbol vars t) :
    evaluateFormula resolveSymbol (t.toPostfix.map spell) = .finite (wholeValue vars t) := by
  rw [evaluateFormula, evaluate_toPostfix]
  exact (shows_valueOf h).2

end Exact

/-! ### `GetEvaluation` -/

namespace AbilityFunction2

variable {f : AbilityFunction2}

/-- A cache that is filled holds the postfix forms. -/
structure Sound (f : AbilityFunction2) (arguments : List Text) : Prop where
  same : f.mArguments = arguments
  cached : f.mCached = true → ∀ i argument, arguments[i]? = some argument →
    f.mArgumentCache.getD i [] = prepare argument

theorem Sound.fillCache {arguments : List Text} (h : f.Sound arguments) :
    f.fillCache.Sound arguments ∧ f.fillCache.mCached = true := by
  rw [AbilityFunction2.fillCache]
  split
  · next hcached => exact ⟨h, hcached⟩
  · refine ⟨⟨h.same, fun _ i argument hi => ?_⟩, rfl⟩
    have hlt := (List.getElem?_eq_some_iff.mp hi).1
    dsimp only
    rw [List.getD_eq_getElem?_getD, List.getElem?_mapIdx, h.same, hi]
    split
    · next hshort =>
        rw [List.getElem?_eq_getElem (by rw [List.length_append, List.length_replicate]; omega)]
        rfl
    · next hlong =>
        rw [List.getElem?_eq_getElem (by omega)]
        rfl

theorem Sound.getEvaluation {arguments : List Text} (h : f.Sound arguments) (argIndex : ℕ)
    (symbolResolver : Text → Double) :
    (f.getEvaluation argIndex symbolResolver).2.Sound arguments := by
  rw [AbilityFunction2.getEvaluation]
  split
  · exact h
  · exact h.fillCache.1

/-- The function after some calls. -/
def called (f : AbilityFunction2) (calls : List (ℕ × (Text → Double))) : AbilityFunction2 :=
  calls.foldl (fun f call => (f.getEvaluation call.1 call.2).2) f

theorem Sound.called {arguments : List Text} (h : f.Sound arguments)
    (calls : List (ℕ × (Text → Double))) : (f.called calls).Sound arguments := by
  induction calls generalizing f with
  | nil => exact h
  | cons call calls ih => exact ih (h.getEvaluation call.1 call.2)

/-- An argument is evaluated with the symbols of the call, whatever was evaluated before. -/
theorem Sound.getEvaluation_eq {arguments : List Text} (h : f.Sound arguments) {argIndex : ℕ}
    {argument : Text} (hi : arguments[argIndex]? = some argument) (symbolResolver : Text → Double) :
    (f.getEvaluation argIndex symbolResolver).1 =
      Single.ofDouble (evaluateFormula symbolResolver (prepare argument)) := by
  have hlt := (List.getElem?_eq_some_iff.mp hi).1
  rw [← h.same] at hlt
  rw [AbilityFunction2.getEvaluation, if_neg (not_le.mpr hlt)]
  dsimp only
  rw [h.fillCache.1.cached h.fillCache.2 argIndex argument hi]

end AbilityFunction2

end Iceee.Formula
