import Deduction.Formula.Parser

namespace Deduction.Formula

/-- The outcomes of the texts looked up so far, each text once. -/
structure Memo where
  lenient : Bool
  entries : List (String × Except SyntaxError Formula) := []

namespace Memo

def empty (lenient : Bool) : Memo := { lenient }

def contains (memo : Memo) (text : String) : Bool :=
  memo.entries.any fun entry => entry.1 == text

def size (memo : Memo) : Nat :=
  memo.entries.length

/-- The outcome of reading a text, from the memo if it is there. A text that is missing is read as
the empty one. -/
def lookUp (memo : Memo) (text : Option String) : Except SyntaxError Formula × Memo :=
  let key := text.getD ""
  match memo.entries.find? fun entry => entry.1 == key with
  | some entry => (entry.2, memo)
  | none =>
      let outcome := parse memo.lenient key
      (outcome, { memo with entries := memo.entries ++ [(key, outcome)] })

inductive Request
  | parse (text : Option String)
  | parse? (text : Option String)
  | errorFor (text : Option String)
  | contains (text : Option String)
  | size

inductive Answer
  | outcome (result : Except SyntaxError Formula)
  | formula (result : Option Formula)
  | error (result : Option SyntaxError)
  | held (result : Bool)
  | count (result : Nat)

def errorOf? : Except SyntaxError Formula → Option SyntaxError
  | .ok _ => none
  | .error e => some e

/-- Answers one request. A text that is missing is never held. -/
def answer (memo : Memo) : Request → Answer × Memo
  | .parse text =>
      let (outcome, memo) := memo.lookUp text
      (.outcome outcome, memo)
  | .parse? text =>
      let (outcome, memo) := memo.lookUp text
      (.formula outcome.toOption, memo)
  | .errorFor text =>
      let (outcome, memo) := memo.lookUp text
      (.error (errorOf? outcome), memo)
  | .contains none => (.held false, memo)
  | .contains (some text) => (.held (memo.contains text), memo)
  | .size => (.count memo.size, memo)

def run (memo : Memo) : List Request → List Answer
  | [] => []
  | request :: rest =>
      let (answer, next) := memo.answer request
      answer :: next.run rest

end Memo

end Deduction.Formula
