import Deduction.Formula.Parser

/-!
The grammar of formulas, and its readers.

A derivation gives a formula to a list of tokens by the productions of the grammar, with no reader
in sight. What the readers take is derived in any set of productions that they follow, and every
derivation is read back: the tokens after a formula only have to be such that it cannot go on.
-/

namespace Deduction.Formula

/-- The ranks of formulas, from the weakest connective to the atoms. -/
inductive Rank
  | equivalence
  | implication
  | disjunction
  | conjunction
  | negation
  | primary
  deriving DecidableEq, Repr

inductive DerivesArguments : List Token → List String → Prop
  | last {token : Token} (hname : token.kind = .identifier) :
      DerivesArguments [token] [token.text]
  | more {token comma : Token} {tokens : List Token} {names : List String}
      (hname : token.kind = .identifier) (hcomma : comma.kind = .comma)
      (hrest : DerivesArguments tokens names) :
      DerivesArguments (token :: comma :: tokens) (token.text :: names)

/-- A quantifier word followed by one letter. -/
def QuantifierPrefix (name : String) : Prop :=
  ∃ letter, Text.isLetter letter = true ∧
    (name = "forall" ++ String.ofList [letter] ∨ name = "exists" ++ String.ofList [letter])

/-- The productions of the grammar. Equivalences, disjunctions and conjunctions are joined to the
left, implications to the right. -/
inductive Derives : Rank → List Token → Formula → Prop
  | ofImplication {tokens : List Token} {formula : Formula} :
      Derives .implication tokens formula → Derives .equivalence tokens formula
  | equivalence {tokens tokens' : List Token} {sign : Token} {left right : Formula} :
      Derives .equivalence tokens left → sign.kind = .equivalence →
      Derives .implication tokens' right →
      Derives .equivalence (tokens ++ sign :: tokens') (.iff left right)
  | ofDisjunction {tokens : List Token} {formula : Formula} :
      Derives .disjunction tokens formula → Derives .implication tokens formula
  | implication {tokens tokens' : List Token} {sign : Token} {left right : Formula} :
      Derives .disjunction tokens left → sign.kind = .implication →
      Derives .implication tokens' right →
      Derives .implication (tokens ++ sign :: tokens') (.imp left right)
  | ofConjunction {tokens : List Token} {formula : Formula} :
      Derives .conjunction tokens formula → Derives .disjunction tokens formula
  | disjunction {tokens tokens' : List Token} {sign : Token} {left right : Formula} :
      Derives .disjunction tokens left → sign.kind = .disjunction →
      Derives .conjunction tokens' right →
      Derives .disjunction (tokens ++ sign :: tokens') (.disj left right)
  | ofNegation {tokens : List Token} {formula : Formula} :
      Derives .negation tokens formula → Derives .conjunction tokens formula
  | conjunction {tokens tokens' : List Token} {sign : Token} {left right : Formula} :
      Derives .conjunction tokens left → sign.kind = .conjunction →
      Derives .negation tokens' right →
      Derives .conjunction (tokens ++ sign :: tokens') (.conj left right)
  | ofPrimary {tokens : List Token} {formula : Formula} :
      Derives .primary tokens formula → Derives .negation tokens formula
  | negation {tokens : List Token} {sign : Token} {operand : Formula} :
      sign.kind = .negation → Derives .negation tokens operand →
      Derives .negation (sign :: tokens) (.neg operand)
  | name {token : Token} : token.kind = .identifier →
      Derives .primary [token] (.atom token.text)
  | application {token opening closing : Token} {tokens : List Token} {names : List String} :
      token.kind = .identifier → ¬ QuantifierPrefix token.text → opening.kind = .openParen →
      DerivesArguments tokens names → closing.kind = .closeParen →
      Derives .primary (token :: opening :: (tokens ++ [closing]))
        (.atom (applicationName token.text names))
  | group {opening closing : Token} {tokens : List Token} {formula : Formula} :
      opening.kind = .openParen → Derives .equivalence tokens formula →
      closing.kind = .closeParen →
      Derives .primary (opening :: (tokens ++ [closing])) formula

theorem Derives.ne_nil {rank : Rank} {tokens : List Token} {formula : Formula}
    (hderives : Derives rank tokens formula) : tokens ≠ [] := by
  induction hderives with
  | ofImplication _ ih => exact ih
  | ofDisjunction _ ih => exact ih
  | ofConjunction _ ih => exact ih
  | ofNegation _ ih => exact ih
  | ofPrimary _ ih => exact ih
  | _ => simp

theorem Derives.ofNegations {tokens : List Token} {formula : Formula}
    (hderives : Derives .negation tokens formula) : Derives .disjunction tokens formula :=
  .ofConjunction (.ofNegation hderives)

section Relabelled

/- The productions read the kinds and the texts of tokens, and nothing else of them. -/
variable {change : Token → Token} (hkind : ∀ token, (change token).kind = token.kind)
  (htext : ∀ token, (change token).text = token.text)

include hkind htext

theorem DerivesArguments.map {tokens : List Token} {names : List String}
    (hderives : DerivesArguments tokens names) : DerivesArguments (tokens.map change) names := by
  induction hderives with
  | @last token hname =>
      rw [← htext token]
      exact .last ((hkind _).trans hname)
  | @more token comma tokens names hname hcomma _ ih =>
      rw [← htext token]
      exact .more ((hkind _).trans hname) ((hkind _).trans hcomma) ih

theorem Derives.map {rank : Rank} {tokens : List Token} {formula : Formula}
    (hderives : Derives rank tokens formula) : Derives rank (tokens.map change) formula := by
  have hsame : ∀ {token : Token} {kind : TokenKind}, token.kind = kind →
      (change token).kind = kind := (hkind _).trans
  induction hderives with
  | ofImplication _ ih => exact .ofImplication ih
  | ofDisjunction _ ih => exact .ofDisjunction ih
  | ofConjunction _ ih => exact .ofConjunction ih
  | ofNegation _ ih => exact .ofNegation ih
  | ofPrimary _ ih => exact .ofPrimary ih
  | equivalence _ hsign _ ihleft ihright =>
      rw [List.map_append]
      exact .equivalence ihleft (hsame hsign) ihright
  | implication _ hsign _ ihleft ihright =>
      rw [List.map_append]
      exact .implication ihleft (hsame hsign) ihright
  | disjunction _ hsign _ ihleft ihright =>
      rw [List.map_append]
      exact .disjunction ihleft (hsame hsign) ihright
  | conjunction _ hsign _ ihleft ihright =>
      rw [List.map_append]
      exact .conjunction ihleft (hsame hsign) ihright
  | negation hsign _ ih => exact .negation (hsame hsign) ih
  | @name token hname =>
      rw [← htext token]
      exact .name (hsame hname)
  | @application token _ _ _ _ hname hplain hopening harguments hclosing =>
      rw [← htext token] at hplain ⊢
      rw [List.map_cons, List.map_cons, List.map_append]
      exact .application (hsame hname) hplain (hsame hopening) (harguments.map hkind htext)
        (hsame hclosing)
  | group hopening _ hclosing ih =>
      rw [List.map_cons, List.map_append]
      exact .group (hsame hopening) ih (hsame hclosing)

end Relabelled

theorem isQuantifierPrefix_iff {name : String} :
    isQuantifierPrefix name = true ↔ QuantifierPrefix name := by
  unfold isQuantifierPrefix QuantifierPrefix
  constructor
  · intro hname
    split at hname
    · rename_i letter hlist
      refine ⟨letter, hname, Or.inl ?_⟩
      rw [← String.toList_inj, hlist]
      simp
    · rename_i letter hlist
      refine ⟨letter, hname, Or.inr ?_⟩
      rw [← String.toList_inj, hlist]
      simp
    · contradiction
  · rintro ⟨letter, hletter, rfl | rfl⟩
    · simpa using hletter
    · simpa using hletter

theorem arguments?_eq_some {tokens rest : List Token} {names : List String}
    (harguments : arguments? tokens = some (names, rest)) :
    ∃ taken closing, tokens = taken ++ closing :: rest ∧ DerivesArguments taken names ∧
      closing.kind = .closeParen := by
  fun_induction arguments? tokens generalizing names with
  | case1 name position text position' rest' =>
      obtain ⟨rfl, rfl⟩ := Prod.mk.inj (Option.some.inj harguments)
      exact ⟨[⟨.identifier, name, position⟩], ⟨.closeParen, text, position'⟩, rfl,
        .last rfl, rfl⟩
  | case2 name position text position' rest' names' after hrest ih =>
      obtain ⟨rfl, rfl⟩ := Prod.mk.inj (Option.some.inj harguments)
      obtain ⟨taken, closing, rfl, hderives, hclosing⟩ := ih hrest
      exact ⟨⟨.identifier, name, position⟩ :: ⟨.comma, text, position'⟩ :: taken, closing, rfl,
        .more rfl rfl hderives, hclosing⟩
  | case3 => contradiction
  | case4 => contradiction

theorem arguments?_of_derives {taken : List Token} {names : List String}
    (hderives : DerivesArguments taken names) {closing : Token}
    (hclosing : closing.kind = .closeParen) (rest : List Token) :
    arguments? (taken ++ closing :: rest) = some (names, rest) := by
  obtain ⟨kind, text, position⟩ := closing
  subst hclosing
  induction hderives with
  | @last token hname =>
      obtain ⟨kind, text, position⟩ := token
      subst hname
      rfl
  | @more token comma tokens names hname hcomma _ ih =>
      obtain ⟨kind, text, position⟩ := token
      obtain ⟨kind', text', position'⟩ := comma
      subst hname
      subst hcomma
      rw [List.cons_append, List.cons_append, arguments?, ih]

/-- What a reader takes is related to the formula that it gives. -/
def Reads (relation : List Token → Formula → Prop) (read : List Token → Reading) : Prop :=
  ∀ tokens formula rest, read tokens = .ok (formula, rest) →
    ∃ taken, tokens = taken ++ rest ∧ relation taken formula

/-- Relations, one for each rank, that are closed under what the readers do. A lenient reader may
take a token, or none, for the placeholder. -/
structure IsReadable (lenient : Bool) (relation : Rank → List Token → Formula → Prop) :
    Prop where
  ofImplication : ∀ {tokens formula},
    relation .implication tokens formula → relation .equivalence tokens formula
  equivalence : ∀ {tokens tokens' sign left right}, relation .equivalence tokens left →
    sign.kind = .equivalence → relation .implication tokens' right →
    relation .equivalence (tokens ++ sign :: tokens') (.iff left right)
  ofDisjunction : ∀ {tokens formula},
    relation .disjunction tokens formula → relation .implication tokens formula
  implication : ∀ {tokens tokens' sign left right}, relation .disjunction tokens left →
    sign.kind = .implication → relation .implication tokens' right →
    relation .implication (tokens ++ sign :: tokens') (.imp left right)
  ofConjunction : ∀ {tokens formula},
    relation .conjunction tokens formula → relation .disjunction tokens formula
  disjunction : ∀ {tokens tokens' sign left right}, relation .disjunction tokens left →
    sign.kind = .disjunction → relation .conjunction tokens' right →
    relation .disjunction (tokens ++ sign :: tokens') (.disj left right)
  ofNegation : ∀ {tokens formula},
    relation .negation tokens formula → relation .conjunction tokens formula
  conjunction : ∀ {tokens tokens' sign left right}, relation .conjunction tokens left →
    sign.kind = .conjunction → relation .negation tokens' right →
    relation .conjunction (tokens ++ sign :: tokens') (.conj left right)
  ofPrimary : ∀ {tokens formula},
    relation .primary tokens formula → relation .negation tokens formula
  negation : ∀ {tokens sign operand}, sign.kind = .negation →
    relation .negation tokens operand → relation .negation (sign :: tokens) (.neg operand)
  name : ∀ {token}, token.kind = .identifier → relation .primary [token] (.atom token.text)
  application : ∀ {token opening closing tokens names}, token.kind = .identifier →
    ¬ QuantifierPrefix token.text → opening.kind = .openParen →
    DerivesArguments tokens names → closing.kind = .closeParen →
    relation .primary (token :: opening :: (tokens ++ [closing]))
      (.atom (applicationName token.text names))
  group : ∀ {opening closing tokens formula}, opening.kind = .openParen →
    relation .equivalence tokens formula → closing.kind = .closeParen →
    relation .primary (opening :: (tokens ++ [closing])) formula
  missing : lenient = true → relation .primary [] placeholder
  skipped : ∀ token, lenient = true → relation .primary [token] placeholder

theorem isReadable_derives : IsReadable false Derives where
  ofImplication := .ofImplication
  equivalence := .equivalence
  ofDisjunction := .ofDisjunction
  implication := .implication
  ofConjunction := .ofConjunction
  disjunction := .disjunction
  ofNegation := .ofNegation
  conjunction := .conjunction
  ofPrimary := .ofPrimary
  negation := .negation
  name := .name
  application := .application
  group := .group
  missing := fun hlenient => nomatch hlenient
  skipped := fun _ hlenient => nomatch hlenient

theorem reads_readNegation {operand result : List Token → Formula → Prop}
    {primary : List Token → Reading} (hprimary : Reads operand primary)
    (hbase : ∀ {tokens formula}, operand tokens formula → result tokens formula)
    (hstep : ∀ {tokens sign formula}, sign.kind = .negation → result tokens formula →
      result (sign :: tokens) (.neg formula)) :
    Reads result (readNegation primary) := by
  intro tokens formula rest hread
  fun_induction readNegation primary tokens generalizing formula with
  | case1 text position after formula' rest' hafter ih =>
      obtain ⟨rfl, rfl⟩ := Prod.mk.inj (Except.ok.inj hread)
      obtain ⟨taken, rfl, hresult⟩ := ih formula' hafter
      exact ⟨⟨.negation, text, position⟩ :: taken, rfl, hstep rfl hresult⟩
  | case2 => contradiction
  | case3 tokens _ =>
      obtain ⟨taken, htokens, hoperand⟩ := hprimary tokens formula rest hread
      exact ⟨taken, htokens, hbase hoperand⟩

theorem reads_readChainFrom {operand result : List Token → Formula → Prop}
    {connective : TokenKind} {join : Formula → Formula → Formula} {read : List Token → Reading}
    (hread : Reads operand read)
    (hstep : ∀ {tokens tokens' sign left right}, result tokens left → sign.kind = connective →
      operand tokens' right → result (tokens ++ sign :: tokens') (join left right))
    {rounds : Nat} {left formula : Formula} {before tokens rest : List Token}
    (hleft : result before left)
    (hchain : readChainFrom connective join read rounds left tokens = .ok (formula, rest)) :
    ∃ taken, tokens = taken ++ rest ∧ result (before ++ taken) formula := by
  induction rounds generalizing left before tokens with
  | zero =>
      rw [readChainFrom.eq_def] at hchain
      obtain ⟨rfl, rfl⟩ := Prod.mk.inj (Except.ok.inj hchain)
      exact ⟨[], rfl, by rwa [List.append_nil]⟩
  | succ rounds ih =>
      cases tokens with
      | nil =>
          rw [readChainFrom.eq_def] at hchain
          obtain ⟨rfl, rfl⟩ := Prod.mk.inj (Except.ok.inj hchain)
          exact ⟨[], rfl, by rwa [List.append_nil]⟩
      | cons sign tokens =>
          rw [readChainFrom] at hchain
          split at hchain
          · rename_i hsign
            split at hchain
            · rename_i right after hright
              obtain ⟨taken, rfl, hoperand⟩ := hread _ _ _ hright
              have hjoined := hstep hleft (beq_iff_eq.mp hsign) hoperand
              obtain ⟨more, rfl, hresult⟩ := ih hjoined hchain
              refine ⟨sign :: (taken ++ more), by simp, ?_⟩
              simpa using hresult
            · contradiction
          · obtain ⟨rfl, rfl⟩ := Prod.mk.inj (Except.ok.inj hchain)
            exact ⟨[], rfl, by rwa [List.append_nil]⟩

theorem reads_readLeftChain {operand result : List Token → Formula → Prop}
    {connective : TokenKind} {join : Formula → Formula → Formula} {read : List Token → Reading}
    (hread : Reads operand read)
    (hbase : ∀ {tokens formula}, operand tokens formula → result tokens formula)
    (hstep : ∀ {tokens tokens' sign left right}, result tokens left → sign.kind = connective →
      operand tokens' right → result (tokens ++ sign :: tokens') (join left right)) :
    Reads result (readLeftChain connective join read) := by
  intro tokens formula rest hchain
  rw [readLeftChain] at hchain
  split at hchain
  · rename_i first after hfirst
    obtain ⟨taken, rfl, hoperand⟩ := hread _ _ _ hfirst
    obtain ⟨more, rfl, hresult⟩ := reads_readChainFrom hread hstep (hbase hoperand) hchain
    exact ⟨taken ++ more, by simp, hresult⟩
  · contradiction

theorem reads_readImplicationFrom {operand result : List Token → Formula → Prop}
    {read : List Token → Reading} (hread : Reads operand read)
    (hbase : ∀ {tokens formula}, operand tokens formula → result tokens formula)
    (hstep : ∀ {tokens tokens' sign left right}, operand tokens left →
      sign.kind = .implication → result tokens' right →
      result (tokens ++ sign :: tokens') (.imp left right)) (rounds : Nat) :
    Reads result (readImplicationFrom read rounds) := by
  intro tokens formula rest himplication
  induction rounds generalizing tokens formula with
  | zero =>
      obtain ⟨taken, htokens, hoperand⟩ := hread _ _ _ himplication
      exact ⟨taken, htokens, hbase hoperand⟩
  | succ rounds ih =>
      rw [readImplicationFrom] at himplication
      split at himplication
      · rename_i left text position after hleft
        split at himplication
        · rename_i right rest' hright
          obtain ⟨rfl, rfl⟩ := Prod.mk.inj (Except.ok.inj himplication)
          obtain ⟨taken, rfl, hoperand⟩ := hread _ _ _ hleft
          obtain ⟨more, rfl, hresult⟩ := ih _ _ hright
          exact ⟨taken ++ ⟨.implication, text, position⟩ :: more, by simp,
            hstep hoperand rfl hresult⟩
        · contradiction
      · rename_i left after _ hleft
        obtain ⟨rfl, rfl⟩ := Prod.mk.inj (Except.ok.inj himplication)
        obtain ⟨taken, htokens, hoperand⟩ := hread _ _ _ hleft
        exact ⟨taken, htokens, hbase hoperand⟩
      · contradiction

section Readers

variable (lenient : Bool) (finish : Nat) (nested : List Token → Reading)

/-- Reads negations, with formulas in parentheses read by `nested`. -/
def readNegations : List Token → Reading :=
  readNegation (readPrimary lenient finish nested)

/-- Reads conjunctions, with formulas in parentheses read by `nested`. -/
def readConjunctions : List Token → Reading :=
  readLeftChain .conjunction .conj (readNegations lenient finish nested)

/-- Reads disjunctions, with formulas in parentheses read by `nested`. -/
def readDisjunctions : List Token → Reading :=
  readLeftChain .disjunction .disj (readConjunctions lenient finish nested)

/-- Reads implications, with formulas in parentheses read by `nested`. -/
def readImplications : List Token → Reading :=
  readImplication (readDisjunctions lenient finish nested)

/-- Reads equivalences, with formulas in parentheses read by `nested`. -/
def readEquivalences : List Token → Reading :=
  readLeftChain .equivalence .iff (readImplications lenient finish nested)

end Readers

theorem readWithin_succ (lenient : Bool) (finish bound : Nat) (tokens : List Token) :
    readWithin lenient finish (bound + 1) tokens =
      readEquivalences lenient finish (readWithin lenient finish bound) tokens := rfl

section Soundness

variable {lenient : Bool} {relation : Rank → List Token → Formula → Prop}
  (hreadable : IsReadable lenient relation) {finish : Nat} {nested : List Token → Reading}

include hreadable

theorem IsReadable.readAtom {token : Token} (hname : token.kind = .identifier)
    {tokens rest : List Token} {formula : Formula}
    (hread : readAtom token.text tokens = (formula, rest)) :
    ∃ taken, token :: tokens = taken ++ rest ∧ relation .primary taken formula := by
  have halone : ∀ {formula rest}, (Formula.atom token.text, tokens) = (formula, rest) →
      ∃ taken, token :: tokens = taken ++ rest ∧ relation .primary taken formula := by
    intro formula rest heq
    obtain ⟨rfl, rfl⟩ := Prod.mk.inj heq
    exact ⟨[token], rfl, hreadable.name hname⟩
  unfold Formula.readAtom at hread
  split at hread
  · rename_i text position after
    split at hread
    · exact halone hread
    · rename_i hquantifier
      split at hread
      · rename_i names after' harguments
        obtain ⟨rfl, rfl⟩ := Prod.mk.inj hread
        obtain ⟨taken, closing, rfl, hderives, hclosing⟩ := arguments?_eq_some harguments
        refine ⟨token :: ⟨.openParen, text, position⟩ :: (taken ++ [closing]), by simp, ?_⟩
        exact hreadable.application hname (fun h => hquantifier (isQuantifierPrefix_iff.mpr h)) rfl
          hderives hclosing
      · exact halone hread
  · exact halone hread

theorem IsReadable.readPrimary (hnested : Reads (relation .equivalence) nested) :
    Reads (relation .primary) (readPrimary lenient finish nested) := by
  intro tokens formula rest hread
  unfold Formula.readPrimary at hread
  split at hread
  · split at hread
    · rename_i hlenient
      obtain ⟨rfl, rfl⟩ := Prod.mk.inj (Except.ok.inj hread)
      exact ⟨[], rfl, hreadable.missing hlenient⟩
    · contradiction
  · rename_i name position after
    have hname : (Token.mk .identifier name position).kind = .identifier := rfl
    exact hreadable.readAtom hname (Except.ok.inj hread)
  · rename_i text position after
    split at hread
    · rename_i inner after' hinner
      obtain ⟨taken, rfl, hrelation⟩ := hnested _ _ _ hinner
      unfold readClose at hread
      split at hread
      · rename_i text' position' rest'
        obtain ⟨rfl, rfl⟩ := Prod.mk.inj (Except.ok.inj hread)
        refine ⟨⟨.openParen, text, position⟩ :: (taken ++ [⟨.closeParen, text', position'⟩]),
          by simp, hreadable.group rfl hrelation rfl⟩
      · contradiction
      · contradiction
    · contradiction
  · rename_i token after _ _
    split at hread
    · rename_i hlenient
      obtain ⟨rfl, rfl⟩ := Prod.mk.inj (Except.ok.inj hread)
      exact ⟨[token], rfl, hreadable.skipped token hlenient⟩
    · contradiction

theorem IsReadable.readEquivalences (hnested : Reads (relation .equivalence) nested) :
    Reads (relation .equivalence) (readEquivalences lenient finish nested) := by
  have hnegation : Reads (relation .negation) (readNegations lenient finish nested) :=
    reads_readNegation (hreadable.readPrimary hnested) hreadable.ofPrimary hreadable.negation
  have hconjunction : Reads (relation .conjunction) (readConjunctions lenient finish nested) :=
    reads_readLeftChain hnegation hreadable.ofNegation hreadable.conjunction
  have hdisjunction : Reads (relation .disjunction) (readDisjunctions lenient finish nested) :=
    reads_readLeftChain hconjunction hreadable.ofConjunction hreadable.disjunction
  have himplication : Reads (relation .implication) (readImplications lenient finish nested) :=
    fun tokens => reads_readImplicationFrom hdisjunction hreadable.ofDisjunction
      hreadable.implication tokens.length tokens
  exact reads_readLeftChain himplication hreadable.ofImplication hreadable.equivalence

theorem IsReadable.readWithin (bound : Nat) :
    Reads (relation .equivalence) (readWithin lenient finish bound) := by
  induction bound with
  | zero =>
      intro tokens formula rest hread
      contradiction
  | succ bound ih =>
      intro tokens formula rest hread
      rw [readWithin_succ] at hread
      exact hreadable.readEquivalences ih tokens formula rest hread

theorem IsReadable.ofTokens {tokens : List Token} {formula : Formula}
    (hread : ofTokens lenient finish tokens = .ok formula) :
    relation .equivalence tokens formula := by
  unfold Formula.ofTokens at hread
  split at hread
  · contradiction
  · split at hread
    · rename_i formula' hwithin
      obtain rfl := Except.ok.inj hread
      obtain ⟨taken, rfl, hrelation⟩ := hreadable.readWithin _ _ _ _ hwithin
      rwa [List.append_nil]
    · contradiction
    · contradiction

end Soundness

/-- The kinds of token with which a formula of a rank may go on. -/
def Rank.continuing : Rank → List TokenKind
  | .primary => [.openParen]
  | .negation => [.openParen]
  | .conjunction => [.openParen, .conjunction]
  | .disjunction => [.openParen, .conjunction, .disjunction]
  | .implication => [.openParen, .conjunction, .disjunction, .implication]
  | .equivalence => [.openParen, .conjunction, .disjunction, .implication, .equivalence]

/-- A formula of a rank cannot go on with these tokens. -/
def Ends (rank : Rank) (rest : List Token) : Prop :=
  ∀ token ∈ rest.head?, token.kind ∉ rank.continuing

theorem Ends.mono {rank rank' : Rank} {rest : List Token} (hends : Ends rank rest)
    (hsubset : ∀ kind ∈ rank'.continuing, kind ∈ rank.continuing) : Ends rank' rest :=
  fun token htoken hmem => hends token htoken (hsubset _ hmem)

theorem ends_cons {rank : Rank} {token : Token} {rest : List Token}
    (hkind : token.kind ∉ rank.continuing) : Ends rank (token :: rest) := by
  intro other hother
  obtain rfl : token = other := by simpa using hother
  exact hkind

theorem ends_nil (rank : Rank) : Ends rank [] := by
  intro token htoken
  simp at htoken

theorem readChainFrom_of_ends {rank : Rank} {connective : TokenKind}
    (hconnective : connective ∈ rank.continuing) {join : Formula → Formula → Formula}
    {read : List Token → Reading} (rounds : Nat) (left : Formula) {rest : List Token}
    (hends : Ends rank rest) :
    readChainFrom connective join read rounds left rest = .ok (left, rest) := by
  cases rounds with
  | zero => rw [readChainFrom.eq_def]
  | succ rounds =>
      cases rest with
      | nil => rw [readChainFrom.eq_def]
      | cons token rest =>
          have hkind : ¬ (token.kind == connective) = true := by
            rw [beq_iff_eq]
            rintro rfl
            exact hends token rfl hconnective
          rw [readChainFrom, if_neg hkind]

/-- The reader of a chain has taken these tokens and goes on from the formula. -/
def Resumes (connective : TokenKind) (join : Formula → Formula → Formula)
    (read : List Token → Reading) (tokens : List Token) (formula : Formula)
    (rest : List Token) : Prop :=
  ∃ rounds, rest.length ≤ rounds ∧
    readLeftChain connective join read (tokens ++ rest) =
      readChainFrom connective join read rounds formula rest

theorem resumes_of_operand {connective : TokenKind} {join : Formula → Formula → Formula}
    {read : List Token → Reading} {tokens rest : List Token} {formula : Formula}
    (hread : read (tokens ++ rest) = .ok (formula, rest)) :
    Resumes connective join read tokens formula rest := by
  refine ⟨rest.length, Nat.le_refl _, ?_⟩
  rw [readLeftChain, hread]

theorem Resumes.step {connective : TokenKind} {join : Formula → Formula → Formula}
    {read : List Token → Reading} {tokens tokens' rest : List Token} {sign : Token}
    {left right : Formula}
    (hleft : Resumes connective join read tokens left (sign :: (tokens' ++ rest)))
    (hsign : sign.kind = connective) (hright : read (tokens' ++ rest) = .ok (right, rest)) :
    Resumes connective join read (tokens ++ sign :: tokens') (join left right) rest := by
  obtain ⟨rounds, hrounds, hchain⟩ := hleft
  obtain ⟨rounds, rfl⟩ : ∃ fewer, rounds = fewer + 1 :=
    Nat.exists_eq_succ_of_ne_zero (Nat.ne_of_gt (Nat.lt_of_lt_of_le (Nat.succ_pos _) hrounds))
  refine ⟨rounds, ?_, ?_⟩
  · simp only [List.length_cons, List.length_append] at hrounds
    omega
  · rw [List.append_assoc, List.cons_append, hchain, readChainFrom,
      if_pos (beq_iff_eq.mpr hsign), hright]

theorem Resumes.read_eq {connective : TokenKind} {join : Formula → Formula → Formula}
    {read : List Token → Reading} {tokens rest : List Token} {formula : Formula}
    (hresumes : Resumes connective join read tokens formula rest) (rank : Rank)
    (hconnective : connective ∈ rank.continuing) (hends : Ends rank rest) :
    readLeftChain connective join read (tokens ++ rest) = .ok (formula, rest) := by
  obtain ⟨rounds, -, hchain⟩ := hresumes
  rw [hchain, readChainFrom_of_ends hconnective rounds formula hends]

theorem readImplicationFrom_of_operand {read : List Token → Reading} {tokens rest : List Token}
    {formula : Formula} (hread : read tokens = .ok (formula, rest))
    (hends : Ends .implication rest) (rounds : Nat) :
    readImplicationFrom read rounds tokens = .ok (formula, rest) := by
  cases rounds with
  | zero => exact hread
  | succ rounds =>
      rw [readImplicationFrom, hread]
      cases rest with
      | nil => rfl
      | cons token rest =>
          obtain ⟨kind, text, position⟩ := token
          cases kind with
          | implication => exact absurd (by simp [Rank.continuing]) (hends _ rfl)
          | _ => rfl

theorem readImplicationFrom_step {read : List Token → Reading}
    {tokens tokens' rest : List Token} {sign : Token} {left right : Formula} {rounds : Nat}
    (hsign : sign.kind = .implication)
    (hleft : read (tokens ++ sign :: (tokens' ++ rest)) = .ok (left, sign :: (tokens' ++ rest)))
    (hright : readImplicationFrom read rounds (tokens' ++ rest) = .ok (right, rest)) :
    readImplicationFrom read (rounds + 1) (tokens ++ sign :: (tokens' ++ rest)) =
      .ok (.imp left right, rest) := by
  obtain ⟨kind, text, position⟩ := sign
  subst hsign
  rw [readImplicationFrom, hleft]
  simp only [hright]

section Completeness

variable (lenient : Bool) (finish : Nat)

/-- What the readers make of tokens that a formula of a rank derives, whatever comes after them
that does not prolong an operand. Readers of chains are left where they would go on. -/
def IsReadBack : Rank → List Token → Formula → Prop
  | .equivalence, tokens, formula => ∀ bound, tokens.length ≤ bound → ∀ rest,
      Ends .implication rest →
      Resumes .equivalence .iff (readImplications lenient finish (readWithin lenient finish bound))
        tokens formula rest
  | .implication, tokens, formula => ∀ bound, tokens.length ≤ bound → ∀ rest,
      Ends .implication rest → ∀ rounds, (tokens ++ rest).length ≤ rounds →
      readImplicationFrom (readDisjunctions lenient finish (readWithin lenient finish bound)) rounds
        (tokens ++ rest) = .ok (formula, rest)
  | .disjunction, tokens, formula => ∀ bound, tokens.length ≤ bound → ∀ rest,
      Ends .conjunction rest →
      Resumes .disjunction .disj (readConjunctions lenient finish (readWithin lenient finish bound))
        tokens formula rest
  | .conjunction, tokens, formula => ∀ bound, tokens.length ≤ bound → ∀ rest,
      Ends .negation rest →
      Resumes .conjunction .conj (readNegations lenient finish (readWithin lenient finish bound))
        tokens formula rest
  | .negation, tokens, formula => ∀ bound, tokens.length ≤ bound → ∀ rest,
      Ends .negation rest →
      readNegations lenient finish (readWithin lenient finish bound) (tokens ++ rest) =
        .ok (formula, rest)
  | .primary, tokens, formula => ∀ bound, tokens.length ≤ bound → ∀ rest,
      Ends .primary rest →
      readPrimary lenient finish (readWithin lenient finish bound) (tokens ++ rest) =
        .ok (formula, rest)

variable {lenient finish}

theorem readPrimary_name {token : Token} (hname : token.kind = .identifier)
    (nested : List Token → Reading) {rest : List Token} (hends : Ends .primary rest) :
    readPrimary lenient finish nested (token :: rest) = .ok (.atom token.text, rest) := by
  obtain ⟨kind, text, position⟩ := token
  subst hname
  cases rest with
  | nil => rfl
  | cons next rest =>
      obtain ⟨kind, text', position'⟩ := next
      cases kind with
      | openParen => exact absurd (by simp [Rank.continuing]) (hends _ rfl)
      | _ => rfl

theorem readPrimary_application {token opening closing : Token} {tokens : List Token}
    {names : List String} (hname : token.kind = .identifier)
    (hquantifier : ¬ QuantifierPrefix token.text) (hopening : opening.kind = .openParen)
    (hderives : DerivesArguments tokens names) (hclosing : closing.kind = .closeParen)
    (nested : List Token → Reading) (rest : List Token) :
    readPrimary lenient finish nested (token :: opening :: (tokens ++ closing :: rest)) =
      .ok (.atom (applicationName token.text names), rest) := by
  obtain ⟨kind, text, position⟩ := token
  obtain ⟨kind', text', position'⟩ := opening
  subst hname
  subst hopening
  have hplain : ¬ isQuantifierPrefix text = true :=
    fun h => hquantifier (isQuantifierPrefix_iff.mp h)
  simp only [readPrimary, readAtom, if_neg hplain, arguments?_of_derives hderives hclosing]

theorem readPrimary_group {opening closing : Token} {tokens : List Token} {formula : Formula}
    (hopening : opening.kind = .openParen) (hclosing : closing.kind = .closeParen)
    {nested : List Token → Reading} {rest : List Token}
    (hnested : nested (tokens ++ closing :: rest) = .ok (formula, closing :: rest)) :
    readPrimary lenient finish nested (opening :: (tokens ++ closing :: rest)) =
      .ok (formula, rest) := by
  obtain ⟨kind, text, position⟩ := opening
  obtain ⟨kind', text', position'⟩ := closing
  subst hopening
  subst hclosing
  simp only [readPrimary, hnested, readClose]

theorem Derives.head_ne_negation {tokens : List Token} {formula : Formula}
    (hderives : Derives .primary tokens formula) (rest : List Token) :
    ∀ token ∈ (tokens ++ rest).head?, token.kind ≠ .negation := by
  cases hderives with
  | name hname => simp [hname]
  | application hname => simp [hname]
  | group hopening => simp [hopening]

theorem readNegations_of_primary {nested : List Token → Reading} {tokens : List Token}
    {formula : Formula} {rest : List Token}
    (hhead : ∀ token ∈ tokens.head?, token.kind ≠ .negation)
    (hread : readPrimary lenient finish nested tokens = .ok (formula, rest)) :
    readNegations lenient finish nested tokens = .ok (formula, rest) := by
  cases tokens with
  | nil => exact hread
  | cons token tokens =>
      obtain ⟨kind, text, position⟩ := token
      cases kind with
      | negation => exact absurd rfl (hhead _ rfl)
      | _ => exact hread

theorem readNegations_step {nested : List Token → Reading} {sign : Token} {tokens : List Token}
    {formula : Formula} {rest : List Token} (hsign : sign.kind = .negation)
    (hread : readNegations lenient finish nested tokens = .ok (formula, rest)) :
    readNegations lenient finish nested (sign :: tokens) = .ok (.neg formula, rest) := by
  obtain ⟨kind, text, position⟩ := sign
  subst hsign
  unfold readNegations at hread ⊢
  rw [readNegation, hread]

/-- Every derivation is read back, by induction on it. -/
theorem Derives.isReadBack {rank : Rank} {tokens : List Token} {formula : Formula}
    (hderives : Derives rank tokens formula) : IsReadBack lenient finish rank tokens formula := by
  induction hderives with
  | ofImplication _ ih =>
      intro bound hbound rest hends
      exact resumes_of_operand (ih bound hbound rest hends _ (Nat.le_refl _))
  | @equivalence tokens tokens' sign left right _ hsign _ ihLeft ihRight =>
      intro bound hbound rest hends
      simp only [List.length_append, List.length_cons] at hbound
      have hleft := ihLeft bound (by omega) (sign :: (tokens' ++ rest))
        (ends_cons (by simp [hsign, Rank.continuing]))
      have hright := ihRight bound (by omega) rest hends _ (Nat.le_refl _)
      exact hleft.step hsign hright
  | ofDisjunction _ ih =>
      intro bound hbound rest hends rounds _
      have hresumes := ih bound hbound rest (hends.mono (by simp [Rank.continuing]))
      have hread := hresumes.read_eq .disjunction (by simp [Rank.continuing])
        (hends.mono (by simp [Rank.continuing]))
      exact readImplicationFrom_of_operand hread hends rounds
  | @implication tokens tokens' sign left right _ hsign _ ihLeft ihRight =>
      intro bound hbound rest hends rounds hrounds
      simp only [List.length_append, List.length_cons] at hbound hrounds
      obtain ⟨rounds, rfl⟩ : ∃ fewer, rounds = fewer + 1 :=
        Nat.exists_eq_succ_of_ne_zero (by omega)
      have hresumes := ihLeft bound (by omega) (sign :: (tokens' ++ rest))
        (ends_cons (by simp [hsign, Rank.continuing]))
      have hleft := hresumes.read_eq .disjunction (by simp [Rank.continuing])
        (ends_cons (by simp [hsign, Rank.continuing]))
      have hright := ihRight bound (by omega) rest hends rounds (by simp; omega)
      rw [List.append_assoc, List.cons_append]
      exact readImplicationFrom_step hsign hleft hright
  | ofConjunction _ ih =>
      intro bound hbound rest hends
      have hresumes := ih bound hbound rest (hends.mono (by simp [Rank.continuing]))
      exact resumes_of_operand (hresumes.read_eq .conjunction (by simp [Rank.continuing]) hends)
  | @disjunction tokens tokens' sign left right _ hsign _ ihLeft ihRight =>
      intro bound hbound rest hends
      simp only [List.length_append, List.length_cons] at hbound
      have hleft := ihLeft bound (by omega) (sign :: (tokens' ++ rest))
        (ends_cons (by simp [hsign, Rank.continuing]))
      have hresumes := ihRight bound (by omega) rest (hends.mono (by simp [Rank.continuing]))
      exact hleft.step hsign (hresumes.read_eq .conjunction (by simp [Rank.continuing]) hends)
  | ofNegation _ ih =>
      intro bound hbound rest hends
      exact resumes_of_operand (ih bound hbound rest hends)
  | @conjunction tokens tokens' sign left right _ hsign _ ihLeft ihRight =>
      intro bound hbound rest hends
      simp only [List.length_append, List.length_cons] at hbound
      have hleft := ihLeft bound (by omega) (sign :: (tokens' ++ rest))
        (ends_cons (by simp [hsign, Rank.continuing]))
      exact hleft.step hsign (ihRight bound (by omega) rest hends)
  | ofPrimary hprimary ih =>
      intro bound hbound rest hends
      exact readNegations_of_primary (hprimary.head_ne_negation rest) (ih bound hbound rest hends)
  | negation hsign _ ih =>
      intro bound hbound rest hends
      simp only [List.length_cons] at hbound
      exact readNegations_step hsign (ih bound (by omega) rest hends)
  | name hname =>
      intro bound _ rest hends
      exact readPrimary_name hname _ hends
  | application hname hquantifier hopening harguments hclosing =>
      intro bound _ rest _
      rw [List.cons_append, List.cons_append, List.append_assoc]
      exact readPrimary_application hname hquantifier hopening harguments hclosing _ rest
  | @group opening closing tokens formula hopening _ hclosing ih =>
      intro bound hbound rest _
      simp only [List.length_cons, List.length_append] at hbound
      -- The parentheses take two tokens, so the bound still covers what they enclose.
      obtain ⟨bound, rfl⟩ : ∃ fewer, bound = fewer + 1 :=
        Nat.exists_eq_succ_of_ne_zero (by omega)
      have hresumes := ih bound (by omega) (closing :: rest)
        (ends_cons (by simp [hclosing, Rank.continuing]))
      have hnested := hresumes.read_eq .equivalence (by simp [Rank.continuing])
        (ends_cons (by simp [hclosing, Rank.continuing]))
      rw [List.cons_append, List.append_assoc]
      exact readPrimary_group hopening hclosing hnested

end Completeness

theorem ofTokens_of_derives (lenient : Bool) (finish : Nat) {tokens : List Token}
    {formula : Formula} (hderives : Derives .equivalence tokens formula) :
    ofTokens lenient finish tokens = .ok formula := by
  have hback : IsReadBack lenient finish .equivalence tokens formula := hderives.isReadBack
  have hresumes := hback tokens.length (Nat.le_refl _) [] (ends_nil _)
  have hread := hresumes.read_eq .equivalence (by simp [Rank.continuing]) (ends_nil _)
  rw [List.append_nil] at hread
  have hsome : ¬ tokens.isEmpty = true := by simpa using hderives.ne_nil
  rw [ofTokens, if_neg hsome, readWithin_succ, readEquivalences, hread]

theorem ofTokens_eq_ok_iff {finish : Nat} {tokens : List Token} {formula : Formula} :
    ofTokens false finish tokens = .ok formula ↔ Derives .equivalence tokens formula :=
  ⟨isReadable_derives.ofTokens, ofTokens_of_derives false finish⟩

/-- The grammar is unambiguous. -/
theorem Derives.unique {tokens : List Token} {first second : Formula}
    (hfirst : Derives .equivalence tokens first) (hsecond : Derives .equivalence tokens second) :
    first = second := by
  have hreadFirst : ofTokens false 0 tokens = .ok first := ofTokens_eq_ok_iff.mpr hfirst
  have hreadSecond : ofTokens false 0 tokens = .ok second := ofTokens_eq_ok_iff.mpr hsecond
  exact Except.ok.inj (hreadFirst.symm.trans hreadSecond)

theorem parse_eq_ofTokens {text : String} {tokens : List Token}
    (hscan : Token.scan false (respell text.toList) = .ok tokens) :
    parse false text = ofTokens false (respell text.toList).length tokens := by
  have hplain : parsePlain false (respell text.toList) =
      ofTokens false (respell text.toList).length tokens := by
    rw [parsePlain, hscan]
  rw [parse, hplain]
  cases ofTokens false (respell text.toList).length tokens with
  | ok formula => rfl
  | error error => rfl

/-- Where a text has tokens, reading it gives the formula that the tokens derive, of which there is
at most one, and a syntax error if they derive none. -/
theorem parse_eq_ok_iff_derives (text : String) (tokens : List Token)
    (hscan : Token.scan false (respell text.toList) = .ok tokens) :
    (∀ formula, parse false text = .ok formula ↔ Derives .equivalence tokens formula) ∧
    (∀ (list : List Token) first second, Derives .equivalence list first →
      Derives .equivalence list second → first = second) ∧
    ((¬ ∃ formula, Derives .equivalence tokens formula) →
      ∃ error : SyntaxError, parse false text = .error error) := by
  have hparse := parse_eq_ofTokens hscan
  refine ⟨?_, fun _ _ _ => Derives.unique, ?_⟩
  · intro formula
    rw [hparse, ofTokens_eq_ok_iff]
  · intro hnone
    cases hresult : parse false text with
    | ok formula =>
        rw [hparse, ofTokens_eq_ok_iff] at hresult
        exact absurd ⟨formula, hresult⟩ hnone
    | error error => exact ⟨error, rfl⟩

theorem parse_application_implies_name :
    parse false "P(a) → B" = .ok (.imp (.atom "P(a)") (.atom "B")) := by
  have hscan : Token.scan false (respell "P(a) → B".toList) =
      .ok [⟨.identifier, "P", 0⟩, ⟨.openParen, "(", 1⟩, ⟨.identifier, "a", 2⟩,
        ⟨.closeParen, ")", 3⟩, ⟨.implication, "->", 5⟩, ⟨.identifier, "B", 8⟩] := by
    rfl
  have hplain : ¬ QuantifierPrefix "P" := by
    rw [← isQuantifierPrefix_iff]
    decide
  have hleft : Derives .disjunction [⟨.identifier, "P", 0⟩, ⟨.openParen, "(", 1⟩,
      ⟨.identifier, "a", 2⟩, ⟨.closeParen, ")", 3⟩] (.atom (applicationName "P" ["a"])) :=
    .ofConjunction (.ofNegation (.ofPrimary
      (.application rfl hplain rfl (.last rfl) rfl)))
  have hright : Derives .implication [⟨.identifier, "B", 8⟩] (.atom "B") :=
    .ofDisjunction (.ofConjunction (.ofNegation (.ofPrimary (.name rfl))))
  have hsign : (Token.mk .implication "->" 5).kind = .implication := rfl
  have hderives := Derives.ofImplication (.implication hleft hsign hright)
  exact ((parse_eq_ok_iff_derives _ _ hscan).1 _).mpr hderives

end Deduction.Formula
