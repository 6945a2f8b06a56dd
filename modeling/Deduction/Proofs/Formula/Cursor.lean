import Deduction.Formula.Cursor
import Deduction.Proofs.Except
import Deduction.Proofs.Formula.Naming
import Deduction.Proofs.Formula.Remainder

/-!
An index into the tokens does what an end of the tokens does.

The index of an end of the tokens is the number of tokens before it. At such indices each reader
gives what its counterpart on ends gives, and stays at such indices. So none of them looks beyond
the last token, which is the end of the text.
-/

namespace Deduction.Formula.Cursor

/-- The index at which an end of the tokens begins. -/
def indexOf (all rest : List Token) : Nat :=
  all.length - rest.length

/-- What a reading of an end of the tokens is in terms of indices. -/
def observe (all : List Token) : Formula.Reading → Reading
  | .ok (formula, rest) => .ok (formula, indexOf all rest)
  | .error error => .error (.ofError error)

/-- A token that is found in a text: it is not the end, and the word for disjunction is no name. -/
structure IsFound (token : Token) : Prop where
  kind_ne : token.kind ≠ .finish
  lexical : IsLexical token

section Tokens

variable {text : List Char} {all rest : List Token} {token : Token}

theorem indexOf_drop (hsuffix : rest <:+ all) {offset : Nat} (hoffset : offset ≤ rest.length) :
    indexOf all (rest.drop offset) = indexOf all rest + offset := by
  have hlength := hsuffix.length_le
  rw [indexOf, indexOf, List.length_drop]
  omega

theorem indexOf_cons (hsuffix : token :: rest <:+ all) :
    indexOf all rest = indexOf all (token :: rest) + 1 :=
  indexOf_drop hsuffix (Nat.le_add_left 1 _)

theorem length_sub_indexOf (hsuffix : rest <:+ all) :
    (all ++ [Token.ending text]).length - indexOf all rest = rest.length + 1 := by
  have hlength := hsuffix.length_le
  rw [List.length_append, List.length_singleton, indexOf]
  omega

theorem current_indexOf (hsuffix : rest <:+ all) :
    current (all ++ [Token.ending text]) (indexOf all rest) =
      .ok (rest.headD (Token.ending text)) := by
  obtain ⟨before, rfl⟩ := hsuffix
  rw [current, indexOf, List.length_append, Nat.add_sub_cancel, List.append_assoc,
    List.getElem?_append_right (Nat.le_refl _), Nat.sub_self]
  cases rest with
  | nil => rfl
  | cons token rest => rfl

theorem peek_indexOf (hsuffix : rest <:+ all) (offset : Nat) :
    peek (all ++ [Token.ending text]) (indexOf all rest) offset =
      .ok ((rest.drop offset).headD (Token.ending text)) := by
  have hlast : min (indexOf all rest + offset) ((all ++ [Token.ending text]).length - 1) =
      indexOf all (rest.drop (min offset rest.length)) := by
    have hlength := hsuffix.length_le
    rw [indexOf_drop hsuffix (Nat.min_le_right _ _), List.length_append, List.length_singleton,
      indexOf]
    omega
  have hdrop : rest.drop (min offset rest.length) = rest.drop offset := by
    rcases Nat.le_total offset rest.length with hle | hle
    · rw [Nat.min_eq_left hle]
    · rw [Nat.min_eq_right hle, List.drop_length, List.drop_eq_nil_of_le hle]
  rw [peek, hlast, current_indexOf ((List.drop_suffix _ _).trans hsuffix), hdrop]

theorem consume_indexOf {kind : TokenKind} (hsuffix : token :: rest <:+ all)
    (hkind : token.kind = kind) :
    consume (all ++ [Token.ending text]) kind (indexOf all (token :: rest)) =
      .ok (indexOf all rest) := by
  rw [consume, current_indexOf hsuffix, ok_bind, indexOf_cons hsuffix, List.headD_cons,
    if_pos (beq_iff_eq.mpr hkind)]
  rfl

/-- What a list of arguments is in terms of indices. -/
def observeArguments (all : List Token) : List String × List Token → List String × Nat
  | (names, rest) => (names, indexOf all rest)

theorem argumentsFrom_indexOf (hfound : ∀ token ∈ all, IsFound token) (hsuffix : rest <:+ all)
    {rounds offset : Nat} (hrounds : (rest.drop offset).length < rounds) :
    argumentsFrom (all ++ [Token.ending text]) (indexOf all rest) rounds offset =
      .ok ((Formula.arguments? (rest.drop offset)).map (observeArguments all)) := by
  induction rounds generalizing offset with
  | zero => exact absurd hrounds (Nat.not_lt_zero _)
  | succ rounds ih =>
      have hsecond : rest.drop (offset + 1) = (rest.drop offset).tail := List.tail_drop.symm
      have hthird : rest.drop (offset + 2) = (rest.drop (offset + 1)).tail := List.tail_drop.symm
      have hlength : (rest.drop offset).length = rest.length - offset := List.length_drop
      have hleft : rest.drop offset <:+ all := (List.drop_suffix _ _).trans hsuffix
      rw [argumentsFrom, peek_indexOf hsuffix, ok_bind, peek_indexOf hsuffix, ok_bind, hsecond]
      rw [hsecond] at hthird
      generalize rest.drop offset = left at *
      cases left with
      | nil => rfl
      | cons token more =>
          obtain ⟨kind, name, position⟩ := token
          cases kind with
          | identifier =>
              have hname := ((hfound _ (hleft.subset List.mem_cons_self)).lexical rfl).2
              rw [if_neg (by simpa using hname)]
              cases more with
              | nil => rfl
              | cons separator more =>
                  obtain ⟨kind', text', position'⟩ := separator
                  simp only [List.tail_cons, List.length_cons] at hthird hlength hrounds
                  cases kind' with
                  | closeParen =>
                      have hoffset : offset + 2 ≤ rest.length := by omega
                      have hindex := indexOf_drop hsuffix hoffset
                      rw [hthird] at hindex
                      rw [Formula.arguments?, Option.map_some, observeArguments, hindex]
                      rfl
                  | comma =>
                      have hmore : (rest.drop (offset + 2)).length < rounds := by
                        rw [hthird]
                        omega
                      have hrest := ih hmore
                      rw [hthird] at hrest
                      simp only [List.tail_cons, List.headD_cons, hrest, Formula.arguments?]
                      cases Formula.arguments? more with
                      | none => rfl
                      | some found => rfl
                  | _ => rfl
          | _ => rfl

theorem arguments?_indexOf (hfound : ∀ token ∈ all, IsFound token) (name : String)
    (hsuffix : token :: rest <:+ all) (hopen : token.kind = .openParen) :
    arguments? (all ++ [Token.ending text]) name (indexOf all (token :: rest)) =
      .ok (if isQuantifierPrefix name then none
        else (Formula.arguments? rest).map (observeArguments all)) := by
  have hrounds : ((token :: rest).drop 1).length < (all ++ [Token.ending text]).length := by
    have hlength := hsuffix.length_le
    rw [List.length_append, List.length_cons] at *
    exact Nat.lt_of_lt_of_le (Nat.lt_succ_self _) (Nat.le_add_right_of_le hlength)
  rw [arguments?, current_indexOf hsuffix, ok_bind, List.headD_cons, hopen]
  cases isQuantifierPrefix name with
  | true => rfl
  | false => exact argumentsFrom_indexOf hfound hsuffix hrounds

theorem readAtom_indexOf (hfound : ∀ token ∈ all, IsFound token) (name : String)
    (hsuffix : rest <:+ all) :
    readAtom (all ++ [Token.ending text]) name (indexOf all rest) =
      observe all (.ok (Formula.readAtom name rest)) := by
  cases rest with
  | nil =>
      rw [readAtom, arguments?, current_indexOf hsuffix]
      rfl
  | cons token rest =>
      obtain ⟨kind, text', position⟩ := token
      cases kind with
      | openParen =>
          rw [readAtom, arguments?_indexOf hfound name hsuffix rfl, Formula.readAtom]
          cases isQuantifierPrefix name with
          | true => rfl
          | false =>
              cases Formula.arguments? rest with
              | none => rfl
              | some found => rfl
      | _ =>
          rw [readAtom, arguments?, current_indexOf hsuffix]
          rfl

theorem readClose_indexOf (formula : Formula) (hsuffix : rest <:+ all) :
    (do
      let last ← consume (all ++ [Token.ending text]) .closeParen (indexOf all rest)
      return (formula, last)) = observe all (readClose text.length formula rest) := by
  cases rest with
  | nil =>
      rw [consume, current_indexOf hsuffix]
      rfl
  | cons token rest =>
      obtain ⟨kind, text', position⟩ := token
      cases kind with
      | closeParen =>
          rw [consume_indexOf hsuffix rfl]
          rfl
      | _ =>
          rw [consume, current_indexOf hsuffix]
          rfl

end Tokens

/-- Below a bound on the tokens left, a reader by indices gives what a reader of ends gives. -/
structure Tracks (lenient : Bool) (text : List Char) (all : List Token) (bound : Nat)
    (indexed : Nat → Reading) (read : List Token → Formula.Reading) : Prop where
  answers : AnswersBelow lenient text.length bound read
  eq : ∀ {rest}, rest <:+ all → rest.length < bound →
    indexed (indexOf all rest) = observe all (read rest)

namespace Tracks

variable {lenient : Bool} {text : List Char} {all : List Token} {bound : Nat}
  {indexed : Nat → Reading} {read : List Token → Formula.Reading}

theorem readPrimary (hfound : ∀ token ∈ all, IsFound token)
    (htracks : Tracks lenient text all bound indexed read) :
    Tracks lenient text all (bound + 1)
      (readPrimary (all ++ [Token.ending text]) lenient indexed)
      (Formula.readPrimary lenient text.length read) where
  answers := htracks.answers.readPrimary
  eq := by
    intro rest hsuffix hbound
    rw [Cursor.readPrimary, current_indexOf hsuffix, ok_bind]
    cases rest with
    | nil =>
        cases lenient with
        | false => rfl
        | true => rfl
    | cons token rest =>
        obtain ⟨kind, name, position⟩ := token
        have hrest := (List.suffix_cons _ rest).trans hsuffix
        cases kind with
        | identifier =>
            simp only [List.headD_cons, beq_self_eq_true, if_true, consume_indexOf hsuffix rfl,
              ok_bind, readAtom_indexOf hfound name hrest]
            rfl
        | openParen =>
            have hinner := htracks.eq hrest (Nat.lt_of_succ_lt_succ hbound)
            have hanswers := htracks.answers rest (Nat.lt_of_succ_lt_succ hbound)
            simp only [List.headD_cons, beq_self_eq_true, if_true, consume_indexOf hsuffix rfl,
              ok_bind, hinner, Formula.readPrimary]
            generalize read rest = inner at hanswers ⊢
            cases hanswers with
            | formula hafter => exact readClose_indexOf _ (hafter.trans hrest)
            | failure _ => rfl
        | finish =>
            have hkind := (hfound _ (hsuffix.subset List.mem_cons_self)).kind_ne
            exact absurd rfl hkind
        | _ =>
            cases lenient with
            | false => rfl
            | true =>
                exact congrArg (fun index => Except.ok (placeholder, index))
                  (indexOf_cons hsuffix).symm

theorem readNegationFrom (htracks : Tracks lenient text all bound indexed read) {rounds : Nat}
    {rest : List Token} (hsuffix : rest <:+ all) (hbound : rest.length < bound)
    (hrounds : rest.length < rounds) :
    readNegationFrom (all ++ [Token.ending text]) indexed rounds (indexOf all rest) =
      observe all (Formula.readNegation read rest) := by
  induction rounds generalizing rest with
  | zero => exact absurd hrounds (Nat.not_lt_zero _)
  | succ rounds ih =>
      rw [Cursor.readNegationFrom, current_indexOf hsuffix, ok_bind]
      cases rest with
      | nil => exact htracks.eq hsuffix hbound
      | cons token rest =>
          obtain ⟨kind, text', position⟩ := token
          cases kind with
          | negation =>
              have hrest := ih ((List.suffix_cons _ rest).trans hsuffix)
                (Nat.lt_of_succ_lt hbound) (Nat.lt_of_succ_lt_succ hrounds)
              simp only [List.headD_cons, beq_self_eq_true, if_true, consume_indexOf hsuffix rfl,
                ok_bind, hrest, Formula.readNegation]
              generalize Formula.readNegation read rest = operand
              cases operand with
              | ok found => rfl
              | error error => rfl
          | _ => exact htracks.eq hsuffix hbound

theorem readNegation (htracks : Tracks lenient text all bound indexed read) :
    Tracks lenient text all bound (readNegation (all ++ [Token.ending text]) indexed)
      (Formula.readNegation read) where
  answers := htracks.answers.readNegation
  eq := by
    intro rest hsuffix hbound
    rw [Cursor.readNegation, length_sub_indexOf hsuffix]
    exact htracks.readNegationFrom hsuffix hbound (Nat.lt_succ_self _)

/-- The round in which the chain ends is the one more. -/
theorem readChainFrom (htracks : Tracks lenient text all bound indexed read)
    {connective : TokenKind} (hconnective : connective ≠ .finish)
    (join : Formula → Formula → Formula) {rounds : Nat} (left : Formula) {rest : List Token}
    (hsuffix : rest <:+ all) (hbound : rest.length < bound) (hrounds : rest.length ≤ rounds) :
    readChainFrom (all ++ [Token.ending text]) connective join indexed (rounds + 1) left
        (indexOf all rest) =
      observe all (Formula.readChainFrom connective join read rounds left rest) := by
  induction rounds generalizing left rest with
  | zero =>
      obtain rfl := List.length_eq_zero_iff.mp (Nat.le_zero.mp hrounds)
      rw [Cursor.readChainFrom, current_indexOf hsuffix, ok_bind,
        if_neg (by simpa [Token.ending] using hconnective.symm)]
      rfl
  | succ rounds ih =>
      rw [Cursor.readChainFrom, current_indexOf hsuffix, ok_bind]
      cases rest with
      | nil =>
          rw [if_neg (by simpa [Token.ending] using hconnective.symm)]
          rfl
      | cons token rest =>
          have hrest := (List.suffix_cons _ rest).trans hsuffix
          have hfewer : rest.length < bound := Nat.lt_of_succ_lt hbound
          rw [Formula.readChainFrom, List.headD_cons]
          by_cases hkind : token.kind = connective
          · have hanswers := htracks.answers rest hfewer
            simp only [beq_iff_eq.mpr hkind, if_true, consume_indexOf hsuffix hkind, ok_bind,
              htracks.eq hrest hfewer]
            generalize read rest = operand at hanswers ⊢
            cases hanswers with
            | formula hafter =>
                have hlength := hafter.length_le
                exact ih _ (hafter.trans hrest) (Nat.lt_of_le_of_lt hlength hfewer)
                  (Nat.le_trans hlength (Nat.le_of_succ_le_succ hrounds))
            | failure _ => rfl
          · rw [if_neg (by simpa using hkind), if_neg (by simpa using hkind)]
            rfl

theorem readLeftChain (htracks : Tracks lenient text all bound indexed read)
    (connective : TokenKind) (hconnective : connective ≠ .finish)
    (join : Formula → Formula → Formula) :
    Tracks lenient text all bound
      (readLeftChain (all ++ [Token.ending text]) connective join indexed)
      (Formula.readLeftChain connective join read) where
  answers := htracks.answers.readLeftChain connective join
  eq := by
    intro rest hsuffix hbound
    have hanswers := htracks.answers rest hbound
    rw [Cursor.readLeftChain, htracks.eq hsuffix hbound, Formula.readLeftChain]
    generalize read rest = first at hanswers ⊢
    cases hanswers with
    | @formula left after hafter =>
        simp only [observe, ok_bind, length_sub_indexOf (hafter.trans hsuffix)]
        exact htracks.readChainFrom hconnective join left (hafter.trans hsuffix)
          (Nat.lt_of_le_of_lt hafter.length_le hbound) (Nat.le_refl _)
    | failure _ => rfl

theorem readImplicationFrom (htracks : Tracks lenient text all bound indexed read)
    {rounds : Nat} {rest : List Token} (hsuffix : rest <:+ all) (hbound : rest.length < bound)
    (hrounds : rest.length ≤ rounds) :
    readImplicationFrom (all ++ [Token.ending text]) indexed (rounds + 1) (indexOf all rest) =
      observe all (Formula.readImplicationFrom read rounds rest) := by
  induction rounds generalizing rest with
  | zero =>
      have hanswers := htracks.answers rest hbound
      rw [Cursor.readImplicationFrom, htracks.eq hsuffix hbound, Formula.readImplicationFrom]
      obtain rfl := List.length_eq_zero_iff.mp (Nat.le_zero.mp hrounds)
      generalize read [] = first at hanswers ⊢
      cases hanswers with
      | formula hafter =>
          obtain rfl := List.suffix_nil.mp hafter
          simp only [observe, ok_bind, current_indexOf hsuffix]
          rfl
      | failure _ => rfl
  | succ rounds ih =>
      have hanswers := htracks.answers rest hbound
      rw [Cursor.readImplicationFrom, htracks.eq hsuffix hbound, Formula.readImplicationFrom]
      generalize read rest = first at hanswers ⊢
      cases hanswers with
      | @formula left after hafter =>
          have hend := hafter.trans hsuffix
          have hlength := hafter.length_le
          simp only [observe, ok_bind, current_indexOf hend]
          cases after with
          | nil => rfl
          | cons token after =>
              obtain ⟨kind, text', position⟩ := token
              rw [List.length_cons] at hlength
              cases kind with
              | implication =>
                  have hright := ih ((List.suffix_cons _ after).trans hend)
                    (Nat.lt_of_le_of_lt (Nat.le_of_succ_le hlength) hbound)
                    (Nat.le_of_succ_le_succ (Nat.le_trans hlength hrounds))
                  simp only [List.headD_cons, beq_self_eq_true, if_true,
                    consume_indexOf hend rfl, ok_bind, hright]
                  generalize Formula.readImplicationFrom read rounds after = right
                  cases right with
                  | ok found => rfl
                  | error error => rfl
              | _ => rfl
      | failure _ => rfl

theorem readImplication (htracks : Tracks lenient text all bound indexed read) :
    Tracks lenient text all bound (readImplication (all ++ [Token.ending text]) indexed)
      (Formula.readImplication read) where
  answers := fun tokens => htracks.answers.readImplicationFrom tokens.length tokens
  eq := by
    intro rest hsuffix hbound
    rw [Cursor.readImplication, length_sub_indexOf hsuffix, Formula.readImplication]
    exact htracks.readImplicationFrom hsuffix hbound (Nat.le_refl _)

end Tracks

section Texts

variable {lenient : Bool} {text : List Char} {all : List Token}

theorem tracks_readWithin (hfound : ∀ token ∈ all, IsFound token) (bound : Nat) :
    Tracks lenient text all bound (readWithin (all ++ [Token.ending text]) lenient bound)
      (Formula.readWithin lenient text.length bound) := by
  induction bound with
  | zero => exact ⟨answersBelow_readWithin _ _ _, fun _ hbound => absurd hbound (Nat.not_lt_zero _)⟩
  | succ bound ih =>
      have hnegations := (ih.readPrimary hfound).readNegation
      have hconjunctions := hnegations.readLeftChain .conjunction nofun .conj
      have hdisjunctions := hconjunctions.readLeftChain .disjunction nofun .disj
      exact hdisjunctions.readImplication.readLeftChain .equivalence nofun .iff

theorem read_eq (hfound : ∀ token ∈ all, IsFound token) :
    read (all ++ [Token.ending text]) lenient =
      (ofTokens lenient text.length all).mapError .ofError := by
  have htracks : Tracks lenient text all _ _ _ := tracks_readWithin hfound (all.length + 1)
  have hanswers := htracks.answers all (Nat.lt_succ_self _)
  have hwithin := htracks.eq List.suffix_rfl (Nat.lt_succ_self _)
  have hcurrent : current (all ++ [Token.ending text]) (indexOf all all) = _ :=
    current_indexOf List.suffix_rfl
  rw [indexOf, Nat.sub_self] at hwithin hcurrent
  rw [read, hcurrent, ok_bind, List.length_append, List.length_singleton, hwithin, ofTokens]
  cases all with
  | nil => rfl
  | cons token rest =>
      have hfirst := (hfound _ List.mem_cons_self).kind_ne
      rw [if_neg (by simpa using hfirst), if_neg (by simp)]
      generalize Formula.readWithin lenient text.length _ (token :: rest) = reading
        at hanswers ⊢
      cases hanswers with
      | @formula formula after hafter =>
          simp only [observe, ok_bind, current_indexOf hafter]
          cases after with
          | nil => rfl
          | cons next after =>
              have hnext := (hfound _ (hafter.subset List.mem_cons_self)).kind_ne
              rw [if_neg (by simpa using hnext)]
              rfl
      | failure _ => rfl

theorem isFound_of_isSpelled {token : Token} (hspelled : token.IsSpelled) : IsFound token where
  kind_ne := by
    intro hkind
    rw [Token.IsSpelled, hkind] at hspelled
    cases hspelled with
    | sign hsign => contradiction
  lexical := isLexical_of_isSpelled hspelled

theorem parsePlain_eq (lenient : Bool) (text : List Char) :
    parsePlain lenient text = (Formula.parsePlain lenient text).mapError .ofError := by
  rw [parsePlain, Token.scanToEnd, Formula.parsePlain]
  cases hscan : Token.scan lenient text with
  | error error => rfl
  | ok tokens =>
      refine read_eq ?_
      intro token htoken
      exact isFound_of_isSpelled (Token.isSpelled_of_scan hscan token htoken)

/-- Reading by indices gives the formula, or the error, that reading the ends gives. -/
theorem parse_eq (lenient : Bool) (text : String) :
    parse lenient text = (Formula.parse lenient text).mapError .ofError := by
  rw [parse, parsePlain_eq, Formula.parse]
  cases Formula.parsePlain lenient (respell text.toList) with
  | ok formula => rfl
  | error error =>
      cases lenient with
      | true => cases error <;> rfl
      | false => cases error <;> rfl

/-- No reader looks beyond the end of the text. -/
theorem parse_ne_overrun (lenient : Bool) (text : String) (index : Nat) :
    parse lenient text ≠ .error (.overrun index) := by
  rw [parse_eq]
  cases Formula.parse lenient text with
  | ok formula => nofun
  | error error =>
      intro heq
      have hfailure := Except.error.inj heq
      cases error with
      | _ => cases hfailure

end Texts

end Deduction.Formula.Cursor
