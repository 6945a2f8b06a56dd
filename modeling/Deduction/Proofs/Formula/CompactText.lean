import Deduction.Proofs.Formula.MainConnective
import Deduction.Proofs.Formula.Phase
import Deduction.Proofs.Formula.RoundTrip
import Deduction.Proofs.Text.Word

/-!
How far the compact text of a formula tells the formula.

A compact text is that of tokens without the blanks between them. It may be the text of more than
one formula: `AvB` is a name, and it is what is left of `A v B`. This is the only way in which
formulas are confused. Two formulas with one text and the same names are the same, and where they
differ a name on one side has absorbed the letter of a disjunction on the other.
-/

namespace Deduction.Formula

open Text Token

theorem IsIdentifier.identifiers_append {name : String} (hname : IsIdentifier name)
    (rest : List Char) (hrest : isBoundary rest.head? = true) :
    identifiers (name.toList ++ rest) = name.toList :: identifiers rest := by
  obtain ⟨first, tail, htext, hletter, htail⟩ := hname
  rw [htext, identifiers_run hletter htail hrest]

section Names

theorem names_append (tokens tokens' : List Token) :
    names (tokens ++ tokens') = names tokens ++ names tokens' := by
  simp [names]

theorem names_cons_identifier {token : Token} (hname : token.kind = .identifier)
    (tokens : List Token) : names (token :: tokens) = token.text.toList :: names tokens := by
  simp [names, hname]

theorem names_cons_sign {token : Token} (hsign : token.kind ≠ .identifier) (tokens : List Token) :
    names (token :: tokens) = names tokens := by
  simp [names, hsign]

theorem names_parenthesized {opening closing : Token} (hopening : opening.kind = .openParen)
    (hclosing : closing.kind = .closeParen) (tokens : List Token) :
    names (opening :: (tokens ++ [closing])) = names tokens := by
  rw [names_cons_sign (by simp [hopening]), names_append, names_cons_sign (by simp [hclosing])]
  simp [names]

theorem DerivesArguments.identifiers_eq {tokens : List Token} {arguments : List String}
    (hderives : DerivesArguments tokens arguments) (hspelled : ∀ token ∈ tokens, token.IsSpelled)
    (rest : List Char) (hrest : isBoundary rest.head? = true) :
    arguments ≠ [] ∧
      identifiers ((",".intercalate arguments).toList ++ rest) =
        names tokens ++ identifiers rest := by
  induction hderives with
  | @last token hname =>
      have hidentifier := (isLexical_of_isSpelled (hspelled token List.mem_cons_self) hname).1
      simp [names, hname, hidentifier.identifiers_append rest hrest]
  | @more token comma tokens arguments hname hcomma _ ih =>
      simp only [List.forall_mem_cons] at hspelled
      obtain ⟨htoken, -, hspelled⟩ := hspelled
      obtain ⟨hsome, hidentifiers⟩ := ih hspelled
      obtain ⟨next, others, rfl⟩ := List.exists_cons_of_ne_nil hsome
      refine ⟨List.cons_ne_nil _ _, ?_⟩
      rw [String.intercalate_cons_cons, String.toList_append, String.toList_append,
        List.append_assoc, List.append_assoc,
        (isLexical_of_isSpelled htoken hname).1.identifiers_append _ rfl,
        names_cons_identifier hname, names_cons_sign (by simp [hcomma]), List.cons_append,
        ← hidentifiers]
      exact congrArg _ (identifiers_other (by decide) _)

theorem names_joined {tokens tokens' : List Token} {sign : Token} {atoms atoms' : List String}
    (hspelled : ∀ token ∈ tokens ++ sign :: tokens', token.IsSpelled)
    (hsign : sign.kind ≠ .identifier)
    (hleft : (∀ token ∈ tokens, token.IsSpelled) →
      names tokens = atoms.flatMap fun name => identifiers name.toList)
    (hright : (∀ token ∈ tokens', token.IsSpelled) →
      names tokens' = atoms'.flatMap fun name => identifiers name.toList) :
    names (tokens ++ sign :: tokens') =
      (atoms ++ atoms').flatMap fun name => identifiers name.toList := by
  obtain ⟨hspelledLeft, hspelledRest⟩ := List.forall_mem_append.mp hspelled
  rw [names_append, names_cons_sign hsign, hleft hspelledLeft,
    hright (List.forall_mem_cons.mp hspelledRest).2, List.flatMap_append]

theorem Derives.names_eq {rank : Rank} {tokens : List Token} {formula : Formula}
    (hderives : Derives rank tokens formula) (hspelled : ∀ token ∈ tokens, token.IsSpelled) :
    names tokens = formula.atoms.flatMap fun name => identifiers name.toList := by
  induction hderives with
  | ofImplication _ ih => exact ih hspelled
  | ofDisjunction _ ih => exact ih hspelled
  | ofConjunction _ ih => exact ih hspelled
  | ofNegation _ ih => exact ih hspelled
  | ofPrimary _ ih => exact ih hspelled
  | equivalence _ hsign _ ihleft ihright =>
      exact names_joined hspelled (by simp [hsign]) ihleft ihright
  | implication _ hsign _ ihleft ihright =>
      exact names_joined hspelled (by simp [hsign]) ihleft ihright
  | disjunction _ hsign _ ihleft ihright =>
      exact names_joined hspelled (by simp [hsign]) ihleft ihright
  | conjunction _ hsign _ ihleft ihright =>
      exact names_joined hspelled (by simp [hsign]) ihleft ihright
  | negation hsign _ ih =>
      rw [names_cons_sign (by simp [hsign]), ih (List.forall_mem_cons.mp hspelled).2, atoms]
  | @name token hname =>
      have hidentifier := (isLexical_of_isSpelled (hspelled token List.mem_cons_self) hname).1
      have hwhole := hidentifier.identifiers_append [] rfl
      rw [List.append_nil, identifiers] at hwhole
      rw [names_cons_identifier hname, atoms, List.flatMap_singleton, hwhole]
      rfl
  | @application token _ _ tokens arguments hname _ hopening harguments hclosing =>
      obtain ⟨htoken, hrest⟩ := List.forall_mem_cons.mp hspelled
      have hinner := (List.forall_mem_append.mp (List.forall_mem_cons.mp hrest).2).1
      have hidentifiers := (harguments.identifiers_eq hinner [')'] rfl).2
      rw [names_cons_identifier hname, names_parenthesized hopening hclosing, atoms,
        List.flatMap_singleton, toList_applicationName,
        (isLexical_of_isSpelled htoken hname).1.identifiers_append _ rfl,
        identifiers_other (by decide), hidentifiers, identifiers_other (by decide), identifiers,
        List.append_nil]
  | group hopening _ hclosing ih =>
      have hinner := (List.forall_mem_append.mp (List.forall_mem_cons.mp hspelled).2).1
      rw [names_parenthesized hopening hclosing, ih hinner]

theorem Derives.subset_atom {rank : Rank} {tokens : List Token} {formula : Formula}
    (hderives : Derives rank tokens formula) (hspelled : ∀ token ∈ tokens, token.IsSpelled)
    {token : Token} (htoken : token ∈ tokens) (hname : token.kind = .identifier) :
    ∃ name ∈ formula.atoms, token.text.toList ⊆ name.toList := by
  have hmem : token.text.toList ∈ names tokens :=
    List.mem_map.mpr ⟨token, List.mem_filter.mpr ⟨htoken, by simp [hname]⟩, rfl⟩
  rw [hderives.names_eq hspelled, List.mem_flatMap] at hmem
  obtain ⟨name, hatom, hidentifier⟩ := hmem
  exact ⟨name, hatom, subset_of_mem_identifiers hidentifier⟩

end Names

section Connectives

variable {kind : TokenKind}

theorem exists_kind_joined {tokens tokens' : List Token} {sign : Token} :
    (∃ token ∈ tokens ++ sign :: tokens', token.kind = kind) ↔ sign.kind = kind ∨
      (∃ token ∈ tokens, token.kind = kind) ∨ ∃ token ∈ tokens', token.kind = kind := by
  simp only [List.mem_append, List.mem_cons, or_and_right, exists_or, exists_eq_left]
  exact or_left_comm

theorem exists_kind_parenthesized {opening closing : Token} {tokens : List Token}
    (hopening : opening.kind ≠ kind) (hclosing : closing.kind ≠ kind) :
    (∃ token ∈ opening :: (tokens ++ [closing]), token.kind = kind) ↔
      ∃ token ∈ tokens, token.kind = kind := by
  simp [or_and_right, exists_or, hopening, hclosing]

theorem Connective.kind_eq_iff {sign : Token} (connective other : Connective)
    (hsign : sign.kind = other.tokenKind) :
    sign.kind = connective.tokenKind ↔ connective = other := by
  rw [hsign]
  cases connective <;> cases other <;> simp [tokenKind]

theorem Connective.kind_ne {token : Token} (connective : Connective)
    (hkind : token.kind ∈ [.identifier, .openParen, .closeParen, .comma]) :
    token.kind ≠ connective.tokenKind := by
  intro hsame
  rw [hsame] at hkind
  cases connective <;> simp [tokenKind] at hkind

theorem DerivesArguments.kind_mem {tokens : List Token} {arguments : List String}
    (hderives : DerivesArguments tokens arguments) :
    ∀ token ∈ tokens, token.kind ∈ [.identifier, .openParen, .closeParen, .comma] := by
  induction hderives with
  | last hname => simp [hname]
  | more hname hcomma _ ih => simpa [hname, hcomma] using ih

theorem Derives.mem_connectives_iff {rank : Rank} {tokens : List Token} {formula : Formula}
    (hderives : Derives rank tokens formula) (connective : Connective) :
    connective ∈ formula.connectives ↔ ∃ token ∈ tokens, token.kind = connective.tokenKind := by
  induction hderives with
  | ofImplication _ ih => exact ih
  | ofDisjunction _ ih => exact ih
  | ofConjunction _ ih => exact ih
  | ofNegation _ ih => exact ih
  | ofPrimary _ ih => exact ih
  | equivalence _ hsign _ ihleft ihright =>
      rw [exists_kind_joined, connective.kind_eq_iff .equivalence hsign, ← ihleft, ← ihright]
      simp [connectives]
  | implication _ hsign _ ihleft ihright =>
      rw [exists_kind_joined, connective.kind_eq_iff .implication hsign, ← ihleft, ← ihright]
      simp [connectives]
  | disjunction _ hsign _ ihleft ihright =>
      rw [exists_kind_joined, connective.kind_eq_iff .disjunction hsign, ← ihleft, ← ihright]
      simp [connectives]
  | conjunction _ hsign _ ihleft ihright =>
      rw [exists_kind_joined, connective.kind_eq_iff .conjunction hsign, ← ihleft, ← ihright]
      simp [connectives]
  | negation hsign _ ih =>
      rw [List.exists_mem_cons_iff, connective.kind_eq_iff .negation hsign, ← ih]
      simp [connectives]
  | @name token hname =>
      have hother : token.kind ≠ connective.tokenKind := connective.kind_ne (by simp [hname])
      simp [connectives, hother]
  | application hname _ hopening harguments hclosing =>
      rw [List.exists_mem_cons_iff, exists_kind_parenthesized
        (connective.kind_ne (by simp [hopening])) (connective.kind_ne (by simp [hclosing]))]
      simp only [connectives, List.not_mem_nil, false_iff, not_or]
      refine ⟨connective.kind_ne (by simp [hname]), ?_⟩
      rintro ⟨token, htoken, hkind⟩
      exact connective.kind_ne (harguments.kind_mem token htoken) hkind
  | group hopening _ hclosing ih =>
      rw [exists_kind_parenthesized (connective.kind_ne (by simp [hopening]))
        (connective.kind_ne (by simp [hclosing]))]
      exact ih

end Connectives

/-- The text of a formula is that of tokens that derive it, one after the other. -/
inductive IsTextOf (formula : Formula) : List Char → Prop
  | intro {tokens : List Token} (hspelled : ∀ token ∈ tokens, token.IsSpelled)
      (hderives : Derives .equivalence tokens formula) : IsTextOf formula (spelling tokens)

theorem IsBare.derives {tokens : List Token} {formula : Formula} (hbare : IsBare tokens formula) :
    Derives .equivalence tokens formula := by
  cases hbare with
  | equivalence hleft hsign hright => exact .equivalence hleft hsign hright
  | implication hleft hsign hright => exact .ofImplication (.implication hleft hsign hright)
  | unsplit hderives _ => exact .ofImplication (.ofDisjunction hderives)

/-- A name of the first formula has the letter `v` in it, and the second has a disjunction. -/
@[mk_iff mayAbsorb_iff_and]
structure MayAbsorb (first second : Formula) : Prop where
  name : ∃ name ∈ first.atoms, 'v' ∈ name.toList
  disjunction : .disjunction ∈ second.connectives

theorem mayAbsorb_of_absorbs {tokens tokens' : List Token} {formula formula' : Formula}
    (hderives : Derives .equivalence tokens formula)
    (hderives' : Derives .equivalence tokens' formula')
    (hspelled : ∀ token ∈ tokens, token.IsSpelled) (habsorbs : Absorbs tokens tokens') :
    MayAbsorb formula formula' where
  name := by
    obtain ⟨token, htoken, hname, hletter⟩ := habsorbs.name
    obtain ⟨name, hatom, hsubset⟩ := hderives.subset_atom hspelled htoken hname
    exact ⟨name, hatom, hsubset hletter⟩
  disjunction := (hderives'.mem_connectives_iff .disjunction).mpr habsorbs.sign

namespace IsTextOf

variable {formula formula' : Formula} {text : List Char}

theorem of_parse {text : String} (hparse : parse false text = .ok formula) :
    IsTextOf formula (compact text.toList) := by
  obtain ⟨tokens, hscan, hderives⟩ := exists_tokens_of_parse hparse
  have hspells : Spells 0 (respell text.toList) tokens := scanFrom_eq_ok_iff_spells.mp hscan
  rw [compact, hspells.removeBlanks_eq]
  exact ⟨hspells.isSpelled, hderives⟩

theorem stripOuter (htext : IsTextOf formula text) : IsTextOf formula (stripOuter text) := by
  obtain ⟨hspelled, hderives⟩ := htext
  obtain ⟨before, inner, after, rfl, -, -, hstrip, hbare⟩ := hderives.hasCore hspelled
  rw [hstrip]
  exact ⟨fun token htoken => hspelled token (by simp [htoken]), hbare.derives⟩

theorem core_of_parse {text : String} (hparse : parse false text = .ok formula) :
    IsTextOf formula (core text.toList) :=
  (of_parse hparse).stripOuter

theorem isBalanced (htext : IsTextOf formula text) : Text.isBalanced text = true := by
  obtain ⟨hspelled, hderives⟩ := htext
  exact (hderives.readsAs hspelled).isClear.isBalanced

/-- Formulas with one text are the same, or their atoms differ and one of them has absorbed a
disjunction of the other. -/
theorem eq_or_mayAbsorb (htext : IsTextOf formula text) (htext' : IsTextOf formula' text) :
    formula = formula' ∨ formula.atoms ≠ formula'.atoms ∧
      (MayAbsorb formula formula' ∨ MayAbsorb formula' formula) := by
  obtain @⟨tokens, hspelled, hderives⟩ := htext
  generalize hsame : spelling tokens = text at htext'
  obtain @⟨tokens', hspelled', hderives'⟩ := htext'
  obtain ⟨last, hrun, -⟩ := hderives.isOperand
  obtain ⟨last', hrun', -⟩ := hderives'.isOperand
  rcases hrun.eq_or_absorbs hrun' hspelled hspelled' hsame with htokens | ⟨hnames, habsorbs⟩
  · have hmapped := hderives.map kind_unplaced text_unplaced
    have hmapped' := hderives'.map kind_unplaced text_unplaced
    rw [htokens] at hmapped
    exact Or.inl (hmapped.unique hmapped')
  · refine Or.inr ⟨?_, ?_⟩
    · intro hatoms
      exact hnames (by rw [hderives.names_eq hspelled, hderives'.names_eq hspelled', hatoms])
    · exact habsorbs.imp (mayAbsorb_of_absorbs hderives hderives' hspelled)
        (mayAbsorb_of_absorbs hderives' hderives hspelled')

theorem eq_of_atoms_eq (htext : IsTextOf formula text) (htext' : IsTextOf formula' text)
    (hatoms : formula.atoms = formula'.atoms) : formula = formula' := by
  rcases htext.eq_or_mayAbsorb htext' with heq | ⟨hother, -⟩
  · exact heq
  · exact absurd hatoms hother

end IsTextOf

/-- Texts that are read as formulas and have the same core are of the same formula exactly if the
formulas have the same atoms, one by one. Else a name of one of them has absorbed the letter of a
disjunction of the other. -/
theorem eq_iff_atoms_eq_of_sameText (first second : String) (formula formula' : Formula)
    (hfirst : parse false first = .ok formula) (hsecond : parse false second = .ok formula')
    (hsame : sameText first.toList second.toList = true) :
    (formula = formula' ↔ formula.atoms = formula'.atoms) ∧
    (formula ≠ formula' → MayAbsorb formula formula' ∨ MayAbsorb formula' formula) := by
  have hcore : core first.toList = core second.toList := by
    rw [sameText, Bool.and_eq_true, beq_iff_eq] at hsame
    exact hsame.2
  have htext := IsTextOf.core_of_parse hfirst
  have htext' := IsTextOf.core_of_parse hsecond
  rw [← hcore] at htext'
  refine ⟨⟨fun heq => by rw [heq], htext.eq_of_atoms_eq htext'⟩, ?_⟩
  intro hother
  rcases htext.eq_or_mayAbsorb htext' with heq | ⟨-, habsorb⟩
  · exact absurd heq hother
  · exact habsorb

theorem negated_name_absorbs_letter :
    parse false "( ! P(x, y) v AvB )" = .ok (.disj (.neg (.atom "P(x,y)")) (.atom "AvB")) ∧
    parse false "!P(x,y) ∨ A v B" =
      .ok (.disj (.disj (.neg (.atom "P(x,y)")) (.atom "A")) (.atom "B")) ∧
    sameText "( ! P(x, y) v AvB )".toList "!P(x,y) ∨ A v B".toList = true ∧
    (disj (.neg (.atom "P(x,y)")) (.atom "AvB")).atoms ≠
      (disj (.disj (.neg (.atom "P(x,y)")) (.atom "A")) (.atom "B")).atoms ∧
    (MayAbsorb (.disj (.neg (.atom "P(x,y)")) (.atom "AvB"))
        (.disj (.disj (.neg (.atom "P(x,y)")) (.atom "A")) (.atom "B")) ∨
      MayAbsorb (.disj (.disj (.neg (.atom "P(x,y)")) (.atom "A")) (.atom "B"))
        (.disj (.neg (.atom "P(x,y)")) (.atom "AvB"))) := by
  have hfirst : parse false "( ! P(x, y) v AvB )" =
      .ok (.disj (.neg (.atom "P(x,y)")) (.atom "AvB")) := by
    decide +kernel
  have hsecond : parse false "!P(x,y) ∨ A v B" =
      .ok (.disj (.disj (.neg (.atom "P(x,y)")) (.atom "A")) (.atom "B")) := by
    decide +kernel
  have hsame : sameText "( ! P(x, y) v AvB )".toList "!P(x,y) ∨ A v B".toList = true := by
    decide +kernel
  have hother : disj (.neg (.atom "P(x,y)")) (.atom "AvB") ≠
      .disj (.disj (.neg (.atom "P(x,y)")) (.atom "A")) (.atom "B") := by
    simp
  have htold := eq_iff_atoms_eq_of_sameText _ _ _ _ hfirst hsecond hsame
  exact ⟨hfirst, hsecond, hsame, fun hatoms => hother (htold.1.mpr hatoms), htold.2 hother⟩

/-- Without its blanks a disjunction is the text of a name. -/
theorem disjunction_has_text_of_name :
    parse false "A v B" = .ok (.disj (.atom "A") (.atom "B")) ∧
    parse false "AvB" = .ok (.atom "AvB") ∧
    sameText "A v B".toList "AvB".toList = true ∧
    disj (.atom "A") (.atom "B") ≠ .atom "AvB" := by
  refine ⟨?_, ?_, ?_, ?_⟩
  · decide +kernel
  · decide +kernel
  · decide +kernel
  · simp

end Deduction.Formula
