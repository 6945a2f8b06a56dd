import Deduction.Formula.Basic

/-!
The canonical form of a formula.

Chains of conjunctions, and chains of disjunctions, are flattened, their operands brought to
canonical form, sorted by key and joined again to the left; the two sides of an equivalence are
put in the order of their keys. Negation and implication keep their operands in place, and no
operand is ever dropped.
-/

namespace Deduction.Formula

/-- The operands of a chain of conjunctions. -/
def conjuncts : Formula → List Formula
  | .conj left right => left.conjuncts ++ right.conjuncts
  | formula => [formula]

/-- The operands of a chain of disjunctions. -/
def disjuncts : Formula → List Formula
  | .disj left right => left.disjuncts ++ right.disjuncts
  | formula => [formula]

/-- Joins formulas to the left; there is always a first one. -/
def joinLeft (join : Formula → Formula → Formula) : List Formula → Formula
  | [] => placeholder
  | first :: rest => rest.foldl join first

/-- Sorts by key; formulas of one key keep their order. -/
def sortByKey (formulas : List Formula) : List Formula :=
  formulas.mergeSort keyLe

/-- An equivalence with its sides in the order of their keys. -/
def orderedIff (left right : Formula) : Formula :=
  if right.key < left.key then .iff right left else .iff left right

/-- A formula's canonical form beside the canonical operands of the chains it heads. -/
structure Flattened where
  form : Formula
  conjuncts : List Formula
  disjuncts : List Formula

/-- A formula that heads no chain. -/
def Flattened.single (form : Formula) : Flattened :=
  { form, conjuncts := [form], disjuncts := [form] }

/-- A chain of conjunctions with these canonical operands. -/
def Flattened.conj (operands : List Formula) : Flattened :=
  let form := joinLeft .conj (sortByKey operands)
  { form, conjuncts := operands, disjuncts := [form] }

/-- A chain of disjunctions with these canonical operands. -/
def Flattened.disj (operands : List Formula) : Flattened :=
  let form := joinLeft .disj (sortByKey operands)
  { form, conjuncts := [form], disjuncts := operands }

/-- Brings a formula and its chains to canonical form, from the atoms up. -/
def flatten : Formula → Flattened
  | .atom name => .single (.atom name)
  | .neg operand => .single (.neg operand.flatten.form)
  | .conj left right => .conj (left.flatten.conjuncts ++ right.flatten.conjuncts)
  | .disj left right => .disj (left.flatten.disjuncts ++ right.flatten.disjuncts)
  | .imp left right => .single (.imp left.flatten.form right.flatten.form)
  | .iff left right => .single (orderedIff left.flatten.form right.flatten.form)

def canonical (formula : Formula) : Formula :=
  formula.flatten.form

def canonicalKey (formula : Formula) : String :=
  formula.canonical.key

/-- Two formulas agree when their canonical forms are the same. -/
def agrees (first second : Formula) : Bool :=
  first.canonical == second.canonical

theorem flatten_conjuncts (formula : Formula) :
    formula.flatten.conjuncts = formula.conjuncts.map canonical := by
  induction formula with
  | conj left right ihLeft ihRight =>
      simp [flatten, Flattened.conj, conjuncts, ihLeft, ihRight]
  | _ => rfl

theorem flatten_disjuncts (formula : Formula) :
    formula.flatten.disjuncts = formula.disjuncts.map canonical := by
  induction formula with
  | disj left right ihLeft ihRight =>
      simp [flatten, Flattened.disj, disjuncts, ihLeft, ihRight]
  | _ => rfl

@[simp] theorem canonical_atom (name : String) : canonical (.atom name) = .atom name := rfl

@[simp] theorem canonical_neg (operand : Formula) :
    canonical (.neg operand) = .neg operand.canonical := rfl

@[simp] theorem canonical_imp (left right : Formula) :
    canonical (.imp left right) = .imp left.canonical right.canonical := rfl

theorem canonical_iff (left right : Formula) :
    canonical (.iff left right) = orderedIff left.canonical right.canonical := rfl

theorem canonical_conj (left right : Formula) :
    canonical (.conj left right) =
      joinLeft .conj (sortByKey ((left.conjuncts ++ right.conjuncts).map canonical)) := by
  rw [canonical, flatten, flatten_conjuncts, flatten_conjuncts, List.map_append]
  rfl

theorem canonical_disj (left right : Formula) :
    canonical (.disj left right) =
      joinLeft .disj (sortByKey ((left.disjuncts ++ right.disjuncts).map canonical)) := by
  rw [canonical, flatten, flatten_disjuncts, flatten_disjuncts, List.map_append]
  rfl

end Deduction.Formula
