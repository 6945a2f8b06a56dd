import Deduction.Proofs.Formula.Grammar

namespace Deduction.Formula

/-- A parenthesis is not closed: one of the tokens, or the end of the text, stands where it should
be. -/
inductive LeavesOpen (finish : Nat) (tokens : List Token) : SyntaxError → Prop
  | found {token : Token} (hmem : token ∈ tokens) :
      LeavesOpen finish tokens (.unclosed token.kind token.position)
  | atEnd : LeavesOpen finish tokens (.unclosed .finish finish)

theorem LeavesOpen.of_suffix {finish : Nat} {tokens rest : List Token} {error : SyntaxError}
    (hopen : LeavesOpen finish rest error) (hsuffix : rest <:+ tokens) :
    LeavesOpen finish tokens error := by
  cases hopen with
  | found hmem => exact .found (hsuffix.subset hmem)
  | atEnd => exact .atEnd

/-- Where a reader fails: a parenthesis is not closed, or a strict reader meets a token, or the end
of the text, where a formula should begin. -/
inductive Fails (lenient : Bool) (finish : Nat) (tokens : List Token) : SyntaxError → Prop
  | unclosed {error : SyntaxError} (hopen : LeavesOpen finish tokens error) :
      Fails lenient finish tokens error
  | unexpected {token : Token} (hstrict : lenient = false) (hmem : token ∈ tokens) :
      Fails lenient finish tokens (.unexpectedToken token.text token.position)
  | atEnd (hstrict : lenient = false) : Fails lenient finish tokens (.unexpectedEnd finish)

theorem Fails.of_suffix {lenient : Bool} {finish : Nat} {tokens rest : List Token}
    {error : SyntaxError} (hfails : Fails lenient finish rest error) (hsuffix : rest <:+ tokens) :
    Fails lenient finish tokens error := by
  cases hfails with
  | unclosed hopen => exact .unclosed (hopen.of_suffix hsuffix)
  | unexpected hstrict hmem => exact .unexpected hstrict (hsuffix.subset hmem)
  | atEnd hstrict => exact .atEnd hstrict

theorem Fails.leavesOpen {finish : Nat} {tokens : List Token} {error : SyntaxError}
    (hfails : Fails true finish tokens error) : LeavesOpen finish tokens error := by
  cases hfails with
  | unclosed hopen => exact hopen
  | unexpected hstrict _ => contradiction
  | atEnd hstrict => contradiction

/-- What comes of reading tokens: a formula and an end of the tokens, or a failure at one of them
or at the end of the text. -/
inductive Answers (lenient : Bool) (finish : Nat) (tokens : List Token) : Reading → Prop
  | formula {formula : Formula} {rest : List Token} (hsuffix : rest <:+ tokens) :
      Answers lenient finish tokens (.ok (formula, rest))
  | failure {error : SyntaxError} (hfails : Fails lenient finish tokens error) :
      Answers lenient finish tokens (.error error)

theorem Answers.of_suffix {lenient : Bool} {finish : Nat} {tokens rest : List Token}
    {reading : Reading} (hanswers : Answers lenient finish rest reading)
    (hsuffix : rest <:+ tokens) : Answers lenient finish tokens reading := by
  cases hanswers with
  | formula hrest => exact .formula (hrest.trans hsuffix)
  | failure hfails => exact .failure (hfails.of_suffix hsuffix)

/-- A reader answers on every list of fewer tokens than the bound. -/
def AnswersBelow (lenient : Bool) (finish bound : Nat) (read : List Token → Reading) : Prop :=
  ∀ tokens, tokens.length < bound → Answers lenient finish tokens (read tokens)

section Readers

variable {lenient : Bool} {finish bound : Nat} {read : List Token → Reading}

theorem suffix_of_arguments? {tokens rest : List Token} {names : List String}
    (harguments : arguments? tokens = some (names, rest)) : rest <:+ tokens := by
  obtain ⟨taken, closing, rfl, -, -⟩ := arguments?_eq_some harguments
  exact ⟨taken ++ [closing], by simp⟩

theorem suffix_readAtom (name : String) (tokens : List Token) :
    (readAtom name tokens).2 <:+ tokens := by
  unfold readAtom
  split
  · rename_i text position rest
    split
    · exact List.suffix_rfl
    · split
      · rename_i names after harguments
        exact (suffix_of_arguments? harguments).trans (List.suffix_cons _ _)
      · exact List.suffix_rfl
  · exact List.suffix_rfl

theorem answers_readClose (formula : Formula) (tokens : List Token) :
    Answers lenient finish tokens (readClose finish formula tokens) := by
  unfold readClose
  split
  · exact .formula (List.suffix_cons _ _)
  · exact .failure (.unclosed (.found List.mem_cons_self))
  · exact .failure (.unclosed .atEnd)

theorem AnswersBelow.readPrimary (hread : AnswersBelow lenient finish bound read) :
    AnswersBelow lenient finish (bound + 1) (readPrimary lenient finish read) := by
  intro tokens hbound
  unfold Formula.readPrimary
  split
  · cases lenient with
    | false => exact .failure (.atEnd rfl)
    | true => exact .formula List.suffix_rfl
  · rename_i name position rest
    exact .formula ((suffix_readAtom name rest).trans (List.suffix_cons _ _))
  · rename_i text position rest
    rw [List.length_cons] at hbound
    have hinner := hread rest (by omega)
    generalize read rest = inner at hinner ⊢
    cases hinner with
    | formula hsuffix =>
        exact (answers_readClose _ _).of_suffix (hsuffix.trans (List.suffix_cons _ _))
    | failure hfails => exact .failure (hfails.of_suffix (List.suffix_cons _ _))
  · cases lenient with
    | false => exact .failure (.unexpected rfl List.mem_cons_self)
    | true => exact .formula (List.suffix_cons _ _)

theorem AnswersBelow.readNegation (hread : AnswersBelow lenient finish bound read) :
    AnswersBelow lenient finish bound (readNegation read) := by
  intro tokens hbound
  fun_induction Formula.readNegation read tokens with
  | case1 text position rest formula after hrest ih =>
      have hanswers := ih (Nat.lt_of_succ_lt hbound)
      rw [hrest] at hanswers
      cases hanswers with
      | formula hsuffix => exact .formula (hsuffix.trans (List.suffix_cons _ _))
  | case2 text position rest error hrest ih =>
      have hanswers := ih (Nat.lt_of_succ_lt hbound)
      rw [hrest] at hanswers
      exact hanswers.of_suffix (List.suffix_cons _ _)
  | case3 tokens _ => exact hread tokens hbound

theorem AnswersBelow.readChainFrom (hread : AnswersBelow lenient finish bound read)
    (connective : TokenKind) (join : Formula → Formula → Formula) (rounds : Nat) (left : Formula)
    {tokens : List Token} (hbound : tokens.length < bound) :
    Answers lenient finish tokens (readChainFrom connective join read rounds left tokens) := by
  induction rounds generalizing left tokens with
  | zero =>
      rw [Formula.readChainFrom.eq_def]
      exact .formula List.suffix_rfl
  | succ rounds ih =>
      cases tokens with
      | nil =>
          rw [Formula.readChainFrom.eq_def]
          exact .formula List.suffix_rfl
      | cons sign rest =>
          have hrest : rest.length < bound := Nat.lt_of_succ_lt hbound
          rw [Formula.readChainFrom]
          split
          · have hoperand := hread rest hrest
            generalize read rest = operand at hoperand ⊢
            cases hoperand with
            | formula hsuffix =>
                have hfewer := Nat.lt_of_le_of_lt hsuffix.length_le hrest
                exact (ih _ hfewer).of_suffix (hsuffix.trans (List.suffix_cons _ _))
            | failure hfails => exact .failure (hfails.of_suffix (List.suffix_cons _ _))
          · exact .formula List.suffix_rfl

theorem AnswersBelow.readLeftChain (hread : AnswersBelow lenient finish bound read)
    (connective : TokenKind) (join : Formula → Formula → Formula) :
    AnswersBelow lenient finish bound (readLeftChain connective join read) := by
  intro tokens hbound
  rw [Formula.readLeftChain]
  have hoperand := hread tokens hbound
  generalize read tokens = operand at hoperand ⊢
  cases hoperand with
  | formula hsuffix =>
      have hfewer := Nat.lt_of_le_of_lt hsuffix.length_le hbound
      exact (hread.readChainFrom connective join _ _ hfewer).of_suffix hsuffix
  | failure hfails => exact .failure hfails

theorem AnswersBelow.readImplicationFrom (hread : AnswersBelow lenient finish bound read) (rounds : Nat) :
    AnswersBelow lenient finish bound (readImplicationFrom read rounds) := by
  induction rounds with
  | zero => exact hread
  | succ rounds ih =>
      intro tokens hbound
      have hoperand := hread tokens hbound
      rw [Formula.readImplicationFrom]
      generalize read tokens = operand at hoperand ⊢
      cases hoperand with
      | @formula left rest hsuffix =>
          have hfewer := Nat.lt_of_le_of_lt hsuffix.length_le hbound
          split
          · rename_i left text position rest heq
            obtain ⟨rfl, rfl⟩ := Prod.mk.inj (Except.ok.inj heq)
            have hright := ih rest (Nat.lt_of_succ_lt hfewer)
            generalize Formula.readImplicationFrom read rounds rest = right at hright ⊢
            have hafter := (List.suffix_cons _ rest).trans hsuffix
            cases hright with
            | formula hsuffix' => exact .formula (hsuffix'.trans hafter)
            | failure hfails => exact .failure (hfails.of_suffix hafter)
          · rename_i heq
            obtain ⟨rfl, rfl⟩ := Prod.mk.inj (Except.ok.inj heq)
            exact .formula hsuffix
          · contradiction
      | failure hfails => exact .failure hfails

end Readers

/-- The bound on the nesting of parentheses is never met. -/
theorem answersBelow_readWithin (lenient : Bool) (finish bound : Nat) :
    AnswersBelow lenient finish bound (readWithin lenient finish bound) := by
  induction bound with
  | zero => exact fun _ hbound => absurd hbound (Nat.not_lt_zero _)
  | succ bound ih =>
      have hconjunctions := ih.readPrimary.readNegation.readLeftChain .conjunction .conj
      have hdisjunctions := hconjunctions.readLeftChain .disjunction .disj
      have himplications : AnswersBelow lenient finish (bound + 1)
          (readImplications lenient finish (readWithin lenient finish bound)) :=
        fun tokens => hdisjunctions.readImplicationFrom tokens.length tokens
      exact himplications.readLeftChain .equivalence .iff

/-- Why tokens are no formula: there are none, one is left over, or the readers fail. -/
theorem cases_of_ofTokens_error {lenient : Bool} {finish : Nat} {tokens : List Token}
    {error : SyntaxError} (hread : ofTokens lenient finish tokens = .error error) :
    (tokens = [] ∧ error = .empty) ∨
      (∃ token ∈ tokens, error = .unexpectedToken token.text token.position) ∨
      Fails lenient finish tokens error := by
  have hanswers := answersBelow_readWithin lenient finish _ tokens (Nat.lt_succ_self _)
  unfold ofTokens at hread
  split at hread
  · rename_i hnone
    exact Or.inl ⟨List.isEmpty_iff.mp hnone, (Except.error.inj hread).symm⟩
  · split at hread
    · contradiction
    · rename_i formula token rest hwithin
      rw [hwithin] at hanswers
      cases hanswers with
      | formula hsuffix =>
          exact Or.inr (Or.inl ⟨token, hsuffix.subset List.mem_cons_self,
            (Except.error.inj hread).symm⟩)
    · rename_i error' hwithin
      obtain rfl := Except.error.inj hread
      rw [hwithin] at hanswers
      cases hanswers with
      | failure hfails => exact Or.inr (Or.inr hfails)

end Deduction.Formula
