import Deduction.Proofs.Formula.Leniency
import Deduction.Proofs.Formula.Naming
import Deduction.Proofs.Formula.Remainder
import Deduction.Proofs.Formula.Tokenization

namespace Deduction.Formula

/-- Where a lenient reading stops short: nothing is there to be read, a token is left over, or a
parenthesis is not closed. -/
inductive StopsShort (finish : Nat) (tokens : List Token) : SyntaxError → Prop
  | empty (hnone : tokens = []) : StopsShort finish tokens .empty
  | leftOver {token : Token} (hmem : token ∈ tokens) :
      StopsShort finish tokens (.unexpectedToken token.text token.position)
  | unclosed {error : SyntaxError} (hopen : LeavesOpen finish tokens error) :
      StopsShort finish tokens error

theorem stopsShort_of_ofTokens {finish : Nat} {tokens : List Token} {error : SyntaxError}
    (hread : ofTokens true finish tokens = .error error) : StopsShort finish tokens error := by
  rcases cases_of_ofTokens_error hread with ⟨hnone, rfl⟩ | ⟨token, hmem, rfl⟩ | hfails
  · exact .empty hnone
  · exact .leftOver hmem
  · exact .unclosed hfails.leavesOpen

/-- A lenient reading gives a formula for every text: that of a strict reading if there is one, and
in any case one with proper names for its atoms. Where the readers stop short, at a token that is
there or at the end of the text, the formula is the placeholder. -/
theorem parse_lenient_extends_strict (text : String) :
    ∃ formula, parse true text = .ok formula ∧
      (∀ strict, parse false text = .ok strict → formula = strict) ∧
      (∀ name ∈ formula.atoms, IsAtomName name) ∧
      ∃ tokens, Token.scan true (respell text.toList) = .ok tokens ∧
        (ofTokens true (respell text.toList).length tokens = .ok formula ∨
          formula = placeholder ∧ ∃ error,
            ofTokens true (respell text.toList).length tokens = .error error ∧
              StopsShort (respell text.toList).length tokens error) := by
  obtain ⟨_, -, hscans⟩ := Token.exists_isMended (respell text.toList)
  obtain ⟨tokens, hscan, -⟩ := hscans 0
  have hplain : parsePlain true (respell text.toList) =
      ofTokens true (respell text.toList).length tokens := by
    rw [parsePlain, Token.scan, hscan]
  have hstrict : ∀ {formula}, parse true text = .ok formula →
      ∀ strict, parse false text = .ok strict → formula = strict := by
    intro formula hparse strict hread
    exact Except.ok.inj (hparse.symm.trans (parse_of_strict hread true))
  cases hread : ofTokens true (respell text.toList).length tokens with
  | ok formula =>
      have hparse : parse true text = .ok formula := by
        rw [parse, hplain, hread]
      exact ⟨formula, hparse, hstrict hparse, isNamed_of_parse hparse, tokens, hscan,
        Or.inl hread⟩
  | error error =>
      have hparse : parse true text = .ok placeholder := by
        rw [parse, hplain, hread]
        rfl
      exact ⟨placeholder, hparse, hstrict hparse, isNamed_of_parse hparse, tokens, hscan,
        Or.inr ⟨rfl, error, hread, stopsShort_of_ofTokens hread⟩⟩

theorem parse_lenient_application :
    parse true "P(x) ∨ ¬B" = .ok (.disj (.atom "P(x)") (.neg (.atom "B"))) := by
  have hread : parse false "P(x) ∨ ¬B" = .ok (.disj (.atom "P(x)") (.neg (.atom "B"))) := by
    decide +kernel
  obtain ⟨formula, hparse, hstrict, -⟩ := parse_lenient_extends_strict "P(x) ∨ ¬B"
  rw [hparse, hstrict _ hread]

example : parse true "A ∧ #" = .ok (.conj (.atom "A") placeholder) := by decide +kernel

example : parse true "(A ∧" = .ok placeholder := by decide +kernel

end Deduction.Formula
