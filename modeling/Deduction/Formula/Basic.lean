namespace Deduction

/-- A formula of propositional logic. -/
inductive Formula
  | atom (name : String)
  | neg (operand : Formula)
  | conj (left right : Formula)
  | disj (left right : Formula)
  | imp (left right : Formula)
  | iff (left right : Formula)
  deriving DecidableEq, Repr, Inhabited

namespace Formula

/-- The truth value under a valuation of the atom names. -/
def eval (valuation : String → Bool) : Formula → Bool
  | .atom name => valuation name
  | .neg operand => !operand.eval valuation
  | .conj left right => left.eval valuation && right.eval valuation
  | .disj left right => left.eval valuation || right.eval valuation
  | .imp left right => !left.eval valuation || right.eval valuation
  | .iff left right => left.eval valuation == right.eval valuation

section Eval

variable (valuation : String → Bool) (left right : Formula)

@[simp] theorem eval_atom (name : String) : eval valuation (.atom name) = valuation name := rfl

@[simp] theorem eval_neg (operand : Formula) :
    eval valuation (.neg operand) = !operand.eval valuation := rfl

@[simp] theorem eval_conj :
    eval valuation (.conj left right) = (left.eval valuation && right.eval valuation) := rfl

@[simp] theorem eval_disj :
    eval valuation (.disj left right) = (left.eval valuation || right.eval valuation) := rfl

@[simp] theorem eval_imp :
    eval valuation (.imp left right) = (!left.eval valuation || right.eval valuation) := rfl

@[simp] theorem eval_iff :
    eval valuation (.iff left right) = (left.eval valuation == right.eval valuation) := rfl

end Eval

/-- A text that spells out the tree. Keys order formulas, character by character. -/
def key : Formula → String
  | .atom name => "v:" ++ name
  | .neg operand => "n:(" ++ operand.key ++ ")"
  | .conj left right => "a:(" ++ left.key ++ "),(" ++ right.key ++ ")"
  | .disj left right => "o:(" ++ left.key ++ "),(" ++ right.key ++ ")"
  | .imp left right => "i:(" ++ left.key ++ ")->(" ++ right.key ++ ")"
  | .iff left right => "b:(" ++ left.key ++ ")<->(" ++ right.key ++ ")"

/-- A formula whose main connective joins two formulas. -/
def isBinary : Formula → Bool
  | .atom _ => false
  | .neg _ => false
  | .conj _ _ => true
  | .disj _ _ => true
  | .imp _ _ => true
  | .iff _ _ => true

/-- Encloses the text of a formula that needs parentheses as an operand. -/
def wrap (formula : Formula) (text : String) : String :=
  if formula.isBinary then "(" ++ text ++ ")" else text

/-- The printed form. Every binary operand stands in parentheses, so no connective needs a rank
to be read back. -/
def render : Formula → String
  | .atom name => name
  | .neg operand => "!" ++ operand.wrap operand.render
  | .conj left right => left.wrap left.render ++ " ^ " ++ right.wrap right.render
  | .disj left right => left.wrap left.render ++ " v " ++ right.wrap right.render
  | .imp left right => left.wrap left.render ++ " -> " ++ right.wrap right.render
  | .iff left right => left.wrap left.render ++ " <-> " ++ right.wrap right.render

/-- The atom that stands for what could not be read. -/
def placeholder : Formula := .atom "?"

/-- The order of formulas by their keys. -/
def keyLe (first second : Formula) : Bool :=
  !decide (second.key < first.key)

/-- How two formulas compare, by tree and by key. A formula is at most another when its key is
smaller or the two are the same tree; it exceeds the other when neither holds. -/
structure Comparison where
  same : Bool
  lt : Bool
  le : Bool
  gt : Bool
  ge : Bool

def compareKeys (first second : Formula) : Comparison :=
  let same := decide (first = second)
  let lt := decide (first.key < second.key)
  { same, lt, le := lt || same, gt := !lt && !same, ge := !lt }

end Formula

end Deduction
