import Iceee.Crafting.Totality
import Iceee.Lib.Nesting
import Iceee.Lib.Text

/-!
# Event lists of abilities

`SetFunctionEvent` reads the functions an ability calls on an event from one text. Commas outside
of parentheses and braces end an entry; an entry `~p%{…}` gives the chance `p` to all the functions
within its braces, under one ID.

## Implementation notes

Of an event only the functions and the counter of chance blocks are here, and of a function
everything but the cache of its formulas. A scanner carries the text since the last cut where the
source keeps the position of the cut.
-/

namespace Iceee.Ability

open Lib

/-! ### Splitting -/

/-- What `SplitFunctionList` counts as a level. -/
def nestLevel (c : Char) : Int :=
  if c = '(' then 1 else if c = ')' then -1 else if c = '{' then 1 else if c = '}' then -1 else 0

/-- `SplitFunctionList`. -/
def splitFunctionList (input : Text) : List Text := Nesting.cut nestLevel ',' 0 [] input

/-- The loop of `SplitFunction` behind the name, with the text since the last cut and the part of
it in front of the last closing parenthesis. -/
def splitArguments : Int → Bool → Text → Option Text → Text → List Text × Bool
  | nest, _, _, last, [] =>
      if nest ≠ 0 then ([], false)
      else
        match last with
        | none => ([], false)
        | some piece => if piece = [] then ([], false) else ([piece], true)
  | nest, quote, piece, last, c :: rest =>
      if c = '(' then splitArguments (nest + 1) quote (piece ++ [c]) last rest
      else if c = ')' then
        if nest - 1 < 0 then ([], false)
        else splitArguments (nest - 1) quote (piece ++ [c]) (some piece) rest
      else if c = ',' ∧ quote = false ∧ nest = 1 then
        -- level zero at the end needs one more parenthesis, so the last one is of no account
        let split := splitArguments nest quote [] none rest
        (piece :: split.1, split.2)
      else
        splitArguments nest (if c = '"' then !quote else quote) (piece ++ [c]) last rest

/-- Where a letter is first met from a position on. -/
def findFrom (c : Char) (pos : Nat) (t : Text) : Option Nat :=
  ((t.drop pos).findIdx? (· == c)).map (· + pos)

/-- `SplitFunction`: the name and the arguments, and whether it met the form of a function. -/
def splitFunction (input : Text) : List Text × Bool :=
  match findFrom '(' 0 input with
  | none => ([input], true)
  | some first =>
      let split := splitArguments 1 false [] none (input.drop (first + 1))
      (input.take first :: split.1, split.2)

/-- `TrimQuote`: what is between the first quote and the last. -/
def trimQuote (modify : Text) : Text :=
  let tail := if '"' ∈ modify then (modify.dropWhile (· ≠ '"')).drop 1 else modify
  if '"' ∈ tail then (tail.rdropWhile (· ≠ '"')).dropLast else tail

/-! ### Functions and events -/

structure AbilityFunction2 where
  mChance : UInt8 := 0
  mChanceID : UInt8 := 0
  mFunctionName : Text := []
  mArguments : List Text := []
  deriving DecidableEq, Repr

/-- What `AssignFormula` makes of an argument. -/
def readArgument (t : Text) : Text :=
  let trimmed := Crafting.trimWhitespace t
  if '"' ∈ trimmed then trimQuote trimmed else trimmed

/-- `AssignFormula`. -/
def AbilityFunction2.assignFormula (f : AbilityFunction2) (formula : Text) : AbilityFunction2 :=
  match (splitFunction formula).1 with
  | [] => f
  | name :: args =>
      { f with mFunctionName := name, mArguments := f.mArguments ++ args.map readArgument }

structure AbilityEvent2 where
  mFunctionList : List AbilityFunction2 := []
  mChanceID : UInt8 := 0
  deriving DecidableEq, Repr

/-- `substr(first, second - first)`: the length wraps round when the end is in front. -/
def substr (t : Text) (first second : Nat) : Text :=
  if second < first then t.drop first else (t.drop first).take (second - first)

/-- The chance in the text of a block. -/
def readChance (t : Text) : UInt8 :=
  let chance := UInt8.ofNat (atoi t % 256).toNat
  if chance > 100 then 100 else chance

namespace AbilityEvent2

/-- `AddChanceFunctionList`. -/
def addChanceFunctionList (e : AbilityEvent2) (t : Text) : AbilityEvent2 :=
  match findFrom '~' 0 t, findFrom '%' 0 t with
  | some first, some second =>
      let chance := readChance (substr t (first + 1) second)
      match findFrom '{' second t, findFrom '}' second t with
      | some opening, some closing =>
          let functionList := splitFunctionList (substr t (opening + 1) closing)
          { mFunctionList := e.mFunctionList ++ functionList.map fun piece =>
              { mChance := chance, mChanceID := e.mChanceID : AbilityFunction2 }.assignFormula
                (Crafting.trimWhitespace piece)
            mChanceID := e.mChanceID + 1 }
      | _, _ => e
  | _, _ => e

/-- One entry of the list. -/
def addEntry (e : AbilityEvent2) (piece : Text) : AbilityEvent2 :=
  let extract := Crafting.trimWhitespace piece
  if findFrom '~' 0 extract = some 0 then e.addChanceFunctionList extract
  else { e with mFunctionList :=
    e.mFunctionList ++ [AbilityFunction2.assignFormula {} extract] }

/-- `SetFunctionEvent`. -/
def setFunctionEvent (e : AbilityEvent2) (eventFunctionList : Text) : AbilityEvent2 :=
  (splitFunctionList eventFunctionList).foldl addEntry e

end AbilityEvent2

/-! ### What is written -/

/-- What opens and closes in an argument. -/
def parenthesis (c : Char) : Int := if c = '(' then 1 else if c = ')' then -1 else 0

/-- A name has no delimiter and no blank. -/
def IsName (t : Text) : Prop := ∀ c ∈ t, c ∉ ['(', ')', '{', '}', ',', '~', ' ', '\t']

/-- An argument has no comma, quote or brace, and its parentheses are balanced. -/
structure IsArgument (t : Text) : Prop where
  plain : ∀ c ∈ t, c ∉ [',', '"', '{', '}']
  balanced : Nesting.Balanced parenthesis t

/-- A function with its arguments, as an author of abilities writes it. -/
structure Call where
  name : Text
  args : List Text
  isName : IsName name
  isArgument : ∀ t ∈ args, IsArgument t

/-- Functions that are called together, with a chance. -/
structure Block where
  chance : Nat
  calls : List Call
  chance_pos : 1 ≤ chance
  chance_le : chance ≤ 100
  calls_ne : calls ≠ []

inductive Entry where
  | call (f : Call)
  | block (b : Block)

def Call.text (f : Call) : Text := f.name ++ '(' :: (commas f.args ++ [')'])

def Block.text (b : Block) : Text :=
  '~' :: (printNat b.chance ++ '%' :: '{' :: (commas (b.calls.map Call.text) ++ ['}']))

namespace Entry

def text : Entry → Text
  | call f => f.text
  | block b => b.text

/-- The functions of an entry. -/
def calls : Entry → List Call
  | call f => [f]
  | block b => b.calls

/-- The chance of an entry; none is zero. -/
def chance : Entry → Nat
  | call _ => 0
  | block b => b.chance

end Entry

/-- The canonical text of an event list. -/
def canonical (entries : List Entry) : Text := commas (entries.map Entry.text)

/-- The functions that the canonical text is read as. -/
def functions (entries : List Entry) : List AbilityFunction2 :=
  (AbilityEvent2.setFunctionEvent {} (canonical entries)).mFunctionList

end Iceee.Ability
