import Mathlib

/-!
# Infix expressions

Expressions of operands, binary operators and parentheses. Operators of higher precedence bind
tighter, and operators of one precedence associate to the left. Every well-formed expression has a
tree, and a stack of values evaluates the postfix form of a tree to its value.
-/

namespace Iceee.Lib.Infix

inductive Token (α O : Type*)
  | operand (a : α)
  | op (o : O)
  | left
  | right

inductive Tree (α O : Type*)
  | leaf (a : α)
  | node (o : O) (l r : Tree α O)

variable {α O V : Type*}

/-- Operands, with binary operators between them and balanced parentheses around them. -/
inductive WellFormed : List (Token α O) → Prop
  | operand (a : α) : WellFormed [.operand a]
  | paren {ts : List (Token α O)} (h : WellFormed ts) : WellFormed (.left :: (ts ++ [.right]))
  | binary {l r : List (Token α O)} (hl : WellFormed l) (o : O) (hr : WellFormed r) :
      WellFormed (l ++ .op o :: r)

/-- `Parses prec p ts t`: the tokens are the tree, and their operators outside parentheses have at
least precedence `p`. On the right of an operator there are only operators that bind tighter. -/
inductive Parses (prec : O → ℕ) : ℕ → List (Token α O) → Tree α O → Prop
  | operand (p : ℕ) (a : α) : Parses prec p [.operand a] (.leaf a)
  | paren (p : ℕ) {ts : List (Token α O)} {t : Tree α O} (h : Parses prec 0 ts t) :
      Parses prec p (.left :: (ts ++ [.right])) t
  | binary {p : ℕ} {o : O} {l r : List (Token α O)} {tl tr : Tree α O} (hp : p ≤ prec o)
      (hl : Parses prec (prec o) l tl) (hr : Parses prec (prec o + 1) r tr) :
      Parses prec p (l ++ .op o :: r) (.node o tl tr)

/-! ### Every well-formed expression has a tree -/

section Existence

variable {prec : O → ℕ} {p q : ℕ} {ts a : List (Token α O)} {t ta : Tree α O}

/-- An operator and an operand behind an expression: the operator takes what is in front of it, as
far as that binds at least as tight. -/
theorem Parses.snoc (h : Parses prec p ts t) {o : O} (ho : p ≤ prec o)
    (ha : ∀ q, Parses prec q a ta) : ∃ t', Parses prec p (ts ++ .op o :: a) t' := by
  induction h with
  | operand p b => exact ⟨_, .binary ho (.operand _ b) (ha _)⟩
  | paren p h _ => exact ⟨_, .binary ho (.paren _ h) (ha _)⟩
  | @binary p o' l r tl tr hp hl hr _ ihr =>
      by_cases htight : prec o ≤ prec o'
      · exact ⟨_, .binary ho (.binary htight hl hr) (ha _)⟩
      · obtain ⟨tr', hr'⟩ := ihr (by omega)
        refine ⟨.node o' tl tr', ?_⟩
        rw [List.append_assoc, List.cons_append]
        exact .binary hp hl hr'

/-- Operands, or expressions in parentheses, with operators between them. -/
inductive Chain (prec : O → ℕ) : List (Token α O) → Prop
  | atom {a : List (Token α O)} {t : Tree α O} (ha : ∀ p, Parses prec p a t) : Chain prec a
  | snoc {ts a : List (Token α O)} {t : Tree α O} (h : Chain prec ts) (o : O)
      (ha : ∀ p, Parses prec p a t) : Chain prec (ts ++ .op o :: a)

theorem Chain.parses (h : Chain prec ts) : ∃ t, Parses prec 0 ts t := by
  induction h with
  | atom ha => exact ⟨_, ha 0⟩
  | snoc _ o ha ih =>
      obtain ⟨t, ht⟩ := ih
      exact ht.snoc (Nat.zero_le _) ha

theorem Chain.append {l r : List (Token α O)} (hl : Chain prec l) (o : O) (hr : Chain prec r) :
    Chain prec (l ++ .op o :: r) := by
  induction hr with
  | atom ha => exact .snoc hl o ha
  | snoc _ o' ha ih =>
      have hassoc (r a : List (Token α O)) :
          l ++ .op o :: (r ++ .op o' :: a) = (l ++ .op o :: r) ++ .op o' :: a := by simp
      rw [hassoc]
      exact .snoc ih o' ha

theorem WellFormed.chain (prec : O → ℕ) (h : WellFormed ts) : Chain prec ts := by
  induction h with
  | operand a => exact .atom fun p => .operand p a
  | paren _ ih =>
      obtain ⟨t, ht⟩ := ih.parses
      exact .atom fun p => .paren p ht
  | binary _ o _ ihl ihr => exact ihl.append o ihr

theorem WellFormed.exists_parses (prec : O → ℕ) (h : WellFormed ts) :
    ∃ t, Parses prec 0 ts t :=
  (h.chain prec).parses

end Existence

/-! ### Values -/

namespace Tree

/-- The value of a tree. -/
def value (apply : O → V → V → V) (val : α → V) : Tree α O → V
  | leaf a => val a
  | node o l r => apply o (l.value apply val) (r.value apply val)

/-- The operands of a tree, and behind them their operators. -/
def toPostfix : Tree α O → List (Token α O)
  | leaf a => [.operand a]
  | node o l r => l.toPostfix ++ (r.toPostfix ++ [.op o])

/-- The operands from the left to the right. -/
def operands : Tree α O → List α
  | leaf a => [a]
  | node _ l r => l.operands ++ r.operands

end Tree

/-- The postfix form has no parentheses. -/
theorem Tree.mem_toPostfix {t : Tree α O} {token : Token α O} (h : token ∈ t.toPostfix) :
    (∃ a, token = .operand a) ∨ ∃ o, token = .op o := by
  induction t with
  | leaf a => exact .inl ⟨a, List.mem_singleton.mp h⟩
  | node o l r ihl ihr =>
      rw [toPostfix, List.mem_append, List.mem_append] at h
      rcases h with h | h | h
      · exact ihl h
      · exact ihr h
      · exact .inr ⟨o, List.mem_singleton.mp h⟩

/-- The operand that a token is. -/
def Token.operand? : Token α O → Option α
  | operand a => some a
  | _ => none

theorem Tree.operands_toPostfix (t : Tree α O) : t.toPostfix.filterMap Token.operand? = t.operands := by
  induction t with
  | leaf a => rfl
  | node o l r ihl ihr =>
      rw [toPostfix, operands, List.filterMap_append, List.filterMap_append, ihl, ihr]
      simp [Token.operand?]

theorem Parses.operands {prec : O → ℕ} {p : ℕ} {ts : List (Token α O)} {t : Tree α O}
    (h : Parses prec p ts t) : ts.filterMap Token.operand? = t.operands := by
  induction h with
  | operand p a => rfl
  | paren p _ ih =>
      rw [List.filterMap_cons_none rfl, List.filterMap_append, ih]
      exact List.append_nil _
  | @binary p o l r tl tr _ _ _ ihl ihr =>
      rw [List.filterMap_append, List.filterMap_cons_none rfl, ihl, ihr]
      rfl

/-- Whether an expression can end with a token. -/
def Token.closes : Token α O → Bool
  | operand _ | right => true
  | op _ | left => false

/-- Whether an expression can begin with a token. -/
def Token.opens : Token α O → Bool
  | operand _ | left => true
  | op _ | right => false

/-- A token can stand in front of another one. -/
def Token.Precedes (a b : Token α O) : Prop := a.closes = !b.opens

theorem Parses.isChain {prec : O → ℕ} {p : ℕ} {ts : List (Token α O)} {t : Tree α O}
    (h : Parses prec p ts t) : ts.IsChain Token.Precedes ∧ (∀ a ∈ ts.head?, a.opens = true) ∧
      (∀ a ∈ ts.getLast?, a.closes = true) ∧ ts ≠ [] := by
  induction h with
  | operand p a => simp [Token.opens, Token.closes]
  | @paren p ts t _ ih =>
      obtain ⟨hchain, hfirst, hlast, hne⟩ := ih
      refine ⟨?_, by simp [Token.opens], fun a ha => ?_, List.cons_ne_nil _ _⟩
      · rw [List.isChain_cons, List.isChain_append]
        refine ⟨fun b hb => ?_, hchain, List.isChain_singleton _, fun a ha b hb => ?_⟩
        · rw [List.head?_append_of_ne_nil _ hne] at hb
          rw [Token.Precedes, hfirst b hb]
          rfl
        · cases hb
          exact hlast a ha
      · rw [← List.cons_append, List.getLast?_concat] at ha
        cases ha
        rfl
  | @binary p o l r tl tr _ _ _ ihl ihr =>
      obtain ⟨hchainl, hfirstl, hlastl, hnel⟩ := ihl
      obtain ⟨hchainr, hfirstr, hlastr, hner⟩ := ihr
      refine ⟨?_, ?_, ?_, by simp⟩
      · rw [List.isChain_append, List.isChain_cons]
        refine ⟨hchainl, ⟨fun b hb => ?_, hchainr⟩, fun a ha b hb => ?_⟩
        · rw [Token.Precedes, hfirstr b hb]
          rfl
        · cases hb
          exact hlastl a ha
      · rw [List.head?_append_of_ne_nil _ hnel]
        exact hfirstl
      · rw [List.getLast?_append_of_ne_nil _ (List.cons_ne_nil _ _), List.getLast?_cons_of_ne_nil hner]
        exact hlastr

/-- Evaluate a postfix expression on a stack of values. -/
def evaluate (apply : O → V → V → V) (val : α → V) : List (Token α O) → List V → Option (List V)
  | [], stack => some stack
  | .operand a :: ts, stack => evaluate apply val ts (val a :: stack)
  | .op o :: ts, right :: left :: stack => evaluate apply val ts (apply o left right :: stack)
  | _ :: _, _ => none

/-- The postfix form of a tree puts its value on the stack. -/
theorem evaluate_toPostfix (apply : O → V → V → V) (val : α → V) (t : Tree α O)
    (ts : List (Token α O)) (stack : List V) :
    evaluate apply val (t.toPostfix ++ ts) stack =
      evaluate apply val ts (t.value apply val :: stack) := by
  induction t generalizing ts stack with
  | leaf a => rfl
  | node o l r ihl ihr =>
      rw [Tree.toPostfix, List.append_assoc, ihl, List.append_assoc, ihr]
      rfl

/-- The postfix form determines the tree: evaluate it to trees. -/
theorem Tree.toPostfix_injective : Function.Injective (Tree.toPostfix (α := α) (O := O)) := by
  have hself (t : Tree α O) : t.value Tree.node Tree.leaf = t := by
    induction t with
    | leaf a => rfl
    | node o l r ihl ihr => rw [Tree.value, ihl, ihr]
  have hvalue (t : Tree α O) : evaluate Tree.node Tree.leaf t.toPostfix [] = some [t] := by
    rw [← List.append_nil t.toPostfix, evaluate_toPostfix, hself]
    rfl
  intro t t' h
  have heq := hvalue t
  rw [h, hvalue t', Option.some.injEq, List.cons.injEq] at heq
  exact heq.1.symm

end Iceee.Lib.Infix
