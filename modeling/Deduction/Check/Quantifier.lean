import Deduction.Check.Context

namespace Deduction.Check

/-- The statement that a text makes with a quantifier. -/
def quantified? (quantifier : Quantifier) (text : List Char) : Option Quantified :=
  (Quantified.parse? text).filter fun statement => statement.quantifier == quantifier

/-- The target is an instance of the body of a quantified statement. -/
def isInstanceOf (statement : Quantified) (target : List Char) : Bool :=
  Quantified.isInstance statement.body [statement.bound] target

/-- The first citation, given that there is one. -/
def withFirst (judge : Context → Citation → Finding) : Check := fun context =>
  match context.citations with
  | cited :: _ => some (judge context cited).textual
  | [] => none

/-- The line generalises the cited instance. -/
def universalIntro : Check := withFirst fun context cited =>
  match quantified? .universal context.text with
  | none => .object .conclusionNotUniversal
  | some statement =>
      .require (isInstanceOf statement cited.text.toList) .citedNotInstanceOfUniversal

/-- The line is an instance of the cited generalisation. -/
def universalElim : Check := withFirst fun context cited =>
  match quantified? .universal cited.text.toList with
  | none => .object .citedNotUniversal
  | some statement => .require (isInstanceOf statement context.text) .conclusionNotInstance

/-- The line states that something is as the cited instance says. -/
def existentialIntro : Check := withFirst fun context cited =>
  match quantified? .existential context.text with
  | none => .object .conclusionNotExistential
  | some statement =>
      .require (isInstanceOf statement cited.text.toList) .citedNotInstanceOfExistential

/-- The first citation is an accessible existential statement. -/
def existentialElim : Check := withFirst fun context cited =>
  if !context.canAccess cited.position then .object (.citedClosed cited.label)
  else
    match quantified? .existential cited.text.toList with
    | none => .object .citedNotExistential
    | some _ => .clean

/-- The line exchanges negation and quantifier of the cited one. -/
def quantifierConversion : Check := withFirst fun context cited =>
  .require (Quantified.isConversion cited.text.toList context.text) .notConversion

end Deduction.Check
