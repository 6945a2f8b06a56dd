import Deduction.Proofs.Formula.Naming
import Deduction.Proofs.Formula.Rearrangement
import Deduction.Proofs.Formula.Scanning
import Deduction.Proofs.Text.Replace

namespace Deduction.Formula

open Text Token

namespace Connective

/-- The accepted signs of a connective, that of renderings first. -/
def signs : Connective → List String
  | .negation => ["!", "¬", "~"]
  | .conjunction => ["^", "∧", "&", "/\\"]
  | .disjunction => ["v", "∨", "||", "\\/"]
  | .implication => ["->", "→", "=>", "⇒"]
  | .equivalence => ["<->", "↔", "⇔", "<=>"]

/-- The sign of a connective in the plain alphabet. -/
def plainSign : Connective → List Char
  | .negation => ['!']
  | .conjunction => ['^']
  | .disjunction => ['v']
  | .implication => ['-', '>']
  | .equivalence => ['<', '-', '>']

/-- The kind of token that a connective is. -/
def tokenKind : Connective → TokenKind
  | .negation => .negation
  | .conjunction => .conjunction
  | .disjunction => .disjunction
  | .implication => .implication
  | .equivalence => .equivalence

end Connective

/-- The renderings of a formula with any accepted sign in the place of each connective. -/
inductive IsWritten : Formula → String → Prop
  | atom (name : String) : IsWritten (.atom name) name
  | neg {operand : Formula} {sign text : String} (hsign : sign ∈ Connective.negation.signs)
      (hoperand : IsWritten operand text) : IsWritten (.neg operand) (sign ++ operand.wrap text)
  | conj {left right : Formula} {sign text text' : String}
      (hsign : sign ∈ Connective.conjunction.signs) (hleft : IsWritten left text)
      (hright : IsWritten right text') :
      IsWritten (.conj left right) (left.wrap text ++ (" " ++ sign ++ " ") ++ right.wrap text')
  | disj {left right : Formula} {sign text text' : String}
      (hsign : sign ∈ Connective.disjunction.signs) (hleft : IsWritten left text)
      (hright : IsWritten right text') :
      IsWritten (.disj left right) (left.wrap text ++ (" " ++ sign ++ " ") ++ right.wrap text')
  | imp {left right : Formula} {sign text text' : String}
      (hsign : sign ∈ Connective.implication.signs) (hleft : IsWritten left text)
      (hright : IsWritten right text') :
      IsWritten (.imp left right) (left.wrap text ++ (" " ++ sign ++ " ") ++ right.wrap text')
  | iff {left right : Formula} {sign text text' : String}
      (hsign : sign ∈ Connective.equivalence.signs) (hleft : IsWritten left text)
      (hright : IsWritten right text') :
      IsWritten (.iff left right) (left.wrap text ++ (" " ++ sign ++ " ") ++ right.wrap text')

theorem isWritten_render (formula : Formula) : IsWritten formula formula.render := by
  induction formula with
  | atom name => exact .atom name
  | neg operand ih => exact .neg List.mem_cons_self ih
  | conj left right ihLeft ihRight =>
      rw [render, show " ^ " = " " ++ "^" ++ " " from rfl]
      exact .conj List.mem_cons_self ihLeft ihRight
  | disj left right ihLeft ihRight =>
      rw [render, show " v " = " " ++ "v" ++ " " from rfl]
      exact .disj List.mem_cons_self ihLeft ihRight
  | imp left right ihLeft ihRight =>
      rw [render, show " -> " = " " ++ "->" ++ " " from rfl]
      exact .imp List.mem_cons_self ihLeft ihRight
  | iff left right ihLeft ihRight =>
      rw [render, show " <-> " = " " ++ "<->" ++ " " from rfl]
      exact .iff List.mem_cons_self ihLeft ihRight

/-- The names of atoms in formulas that are read strictly. -/
inductive IsStrictName : String → Prop
  | word {name : String} (hname : IsWord name) : IsStrictName name
  | application {name : String} {arguments : List String} (hname : IsWord name)
      (hquantifier : ¬ QuantifierPrefix name) (hsome : arguments ≠ [])
      (harguments : ∀ argument ∈ arguments, IsWord argument) :
      IsStrictName (applicationName name arguments)

theorem isNaming_isStrictName : IsNaming false IsStrictName where
  word := .word
  application := .application
  placeholder := fun hlenient => nomatch hlenient

section Respelling

theorem respell_append_cons {c : Char} (hc : IsUntouched spellings c) (before after : List Char) :
    respell (before ++ c :: after) = respell before ++ c :: respell after :=
  replaceEach_append_cons (by decide) hc before after

theorem respell_cons {c : Char} (hc : IsUntouched spellings c) (after : List Char) :
    respell (c :: after) = c :: respell after :=
  replaceEach_cons (by decide) hc after

theorem isUntouched_of_isWordChar {c : Char} (hword : isWordChar c = true) :
    IsUntouched spellings c :=
  isUntouched_of_test (by decide) hword

theorem isUntouched_of_mem_arguments {arguments : List String}
    (harguments : ∀ argument ∈ arguments, IsIdentifier argument) :
    ∀ c ∈ (",".intercalate arguments).toList, IsUntouched spellings c := by
  induction arguments with
  | nil => simp
  | cons argument rest ih =>
      have hargument : ∀ c ∈ argument.toList, IsUntouched spellings c := fun c hc =>
        isUntouched_of_isWordChar ((harguments argument List.mem_cons_self).isWordChar hc)
      have hrest := ih fun other hother => harguments other (List.mem_cons_of_mem _ hother)
      cases rest with
      | nil => simpa using hargument
      | cons next rest =>
          intro c hc
          rw [String.intercalate_cons_cons, String.toList_append, String.toList_append,
            List.mem_append, List.mem_append] at hc
          rcases hc with (hc | hc) | hc
          · exact hargument c hc
          · rw [show c = ',' by simpa using hc]
            decide
          · exact hrest c hc

theorem toList_applicationName (name : String) (arguments : List String) :
    (applicationName name arguments).toList =
      name.toList ++ '(' :: ((",".intercalate arguments).toList ++ [')']) := by
  simp [applicationName]

theorem IsStrictName.respell_eq {name : String} (hname : IsStrictName name) :
    respell name.toList = name.toList := by
  apply replaceEach_of_untouched (by decide)
  cases hname with
  | word hname => exact fun c hc => isUntouched_of_isWordChar (hname.1.isWordChar hc)
  | application hname _ _ harguments =>
      intro c hc
      rw [toList_applicationName, List.mem_append, List.mem_cons, List.mem_append,
        List.mem_singleton] at hc
      rcases hc with hc | rfl | hc | rfl
      · exact isUntouched_of_isWordChar (hname.1.isWordChar hc)
      · decide
      · exact isUntouched_of_mem_arguments (fun argument h => (harguments argument h).1) c hc
      · decide

theorem respell_negation {sign : String} (hsign : sign ∈ Connective.negation.signs)
    (text : List Char) : respell (sign.toList ++ text) = '!' :: respell text := by
  have halias : ∀ (table table' : List (List Char × List Char)) (c : Char),
      spellings = table ++ ([c], ['!']) :: table' → IsUntouched table c →
        IsUntouched table' '!' → respell (c :: text) = '!' :: respell text := by
    intro table table' c htable hc hplain
    have hsome : ∀ spelling ∈ spellings, spelling.1 ≠ [] := by decide
    rw [htable] at hsome
    change replaceEach spellings (c :: text) = '!' :: replaceEach spellings text
    rw [htable, replaceEach_append, replaceEach_append,
      replaceEach_cons (fun entry h => hsome entry (List.mem_append_left _ h)) hc]
    change replaceEach table' (replaceAll [c] ['!'] (c :: replaceEach table text)) = _
    rw [replaceAll_singleton_cons]
    exact replaceEach_cons
      (fun entry h => hsome entry (List.mem_append_right _ (List.mem_cons_of_mem _ h))) hplain _
  simp only [Connective.signs, List.mem_cons, List.not_mem_nil, or_false] at hsign
  rcases hsign with rfl | rfl | rfl
  · exact respell_cons (by decide) text
  · exact halias (spellings.take 12) (spellings.drop 13) '¬' rfl (by decide) (by decide)
  · exact halias (spellings.take 13) (spellings.drop 14) '~' rfl (by decide) (by decide)

theorem respell_sign {connective : Connective} {sign : String} (hsign : sign ∈ connective.signs) :
    respell sign.toList = connective.plainSign ∨
      respell sign.toList = ' ' :: (connective.plainSign ++ [' ']) := by
  revert sign
  cases connective <;> decide

end Respelling

section Scanning

theorem scansTo_plainSign (connective : Connective) :
    ScansTo (fun tokens => ∃ sign, tokens = [sign] ∧ sign.kind = connective.tokenKind)
      connective.plainSign := by
  cases connective with
  | disjunction =>
      have hword : IsIdentifier "v" := ⟨'v', [], rfl, rfl, by simp⟩
      exact scansTo_identifier hword fun position => ⟨_, rfl, rfl⟩
  | negation => exact scansTo_lexeme rfl (fun _ _ => rfl) fun position => ⟨_, rfl, rfl⟩
  | conjunction => exact scansTo_lexeme rfl (fun _ _ => rfl) fun position => ⟨_, rfl, rfl⟩
  | implication => exact scansTo_lexeme rfl (fun _ _ => rfl) fun position => ⟨_, rfl, rfl⟩
  | equivalence => exact scansTo_lexeme rfl (fun _ _ => rfl) fun position => ⟨_, rfl, rfl⟩

theorem scansTo_sign {connective : Connective} {sign : String} (hsign : sign ∈ connective.signs) :
    ScansTo (fun tokens => ∃ sign, tokens = [sign] ∧ sign.kind = connective.tokenKind)
      (respell sign.toList) := by
  have hplain := scansTo_plainSign connective
  rcases respell_sign hsign with heq | heq
  · rw [heq]
    exact hplain
  · rw [heq]
    refine .cons_blank rfl (hplain.append (scansTo_nil.cons_blank rfl) rfl ?_)
    rintro tokens _ htokens rfl
    rwa [List.append_nil]

theorem IsWord.scansTo {name : String} (hname : IsWord name) :
    ScansTo (fun tokens => ∃ token, tokens = [token] ∧ token.kind = .identifier ∧
      token.text = name) name.toList :=
  scansTo_identifier hname.1 fun _ => ⟨_, rfl, if_neg hname.2, rfl⟩

theorem scansTo_arguments {arguments : List String} (hsome : arguments ≠ [])
    (harguments : ∀ argument ∈ arguments, IsWord argument) :
    ScansTo (fun tokens => DerivesArguments tokens arguments)
      (",".intercalate arguments).toList := by
  induction arguments with
  | nil => exact absurd rfl hsome
  | cons argument rest ih =>
      have hargument := (harguments argument List.mem_cons_self).scansTo
      cases rest with
      | nil =>
          rw [String.intercalate_singleton]
          apply hargument.mono
          rintro _ ⟨token, rfl, hkind, rfl⟩
          exact .last hkind
      | cons next rest =>
          have hrest := ih (List.cons_ne_nil _ _) fun other hother =>
            harguments other (List.mem_cons_of_mem _ hother)
          rw [String.intercalate_cons_cons, String.toList_append, String.toList_append,
            List.append_assoc]
          refine hargument.append_mark hrest rfl rfl (fun _ => rfl) ?_
          rintro _ comma tokens ⟨token, rfl, hkind, rfl⟩ hcomma htokens
          exact .more hkind hcomma htokens

theorem scansTo_parenthesized {property joined : List Token → Prop} {text : List Char}
    (hscans : ScansTo property text)
    (hjoin : ∀ opening tokens closing, opening.kind = .openParen → property tokens →
      closing.kind = .closeParen → joined (opening :: (tokens ++ [closing]))) :
    ScansTo joined ('(' :: (text ++ [')'])) := by
  have hinside : ScansTo (fun tokens => ∃ (inside : List Token) (closing : Token),
      tokens = inside ++ [closing] ∧ property inside ∧ closing.kind = .closeParen)
      (text ++ [')']) := by
    refine hscans.append_mark scansTo_nil rfl rfl (fun _ => rfl) ?_
    rintro inside closing _ hproperty hkind rfl
    exact ⟨inside, closing, rfl, hproperty, hkind⟩
  refine hinside.cons_mark rfl (fun _ => rfl) ?_
  rintro position _ ⟨inside, closing, rfl, hproperty, hkind⟩
  exact hjoin _ inside closing rfl hproperty hkind

theorem IsStrictName.scansTo {name : String} (hname : IsStrictName name) :
    ScansTo (fun tokens => Derives .negation tokens (.atom name)) name.toList := by
  cases hname with
  | word hname =>
      apply hname.scansTo.mono
      rintro _ ⟨token, rfl, hkind, rfl⟩
      exact .ofPrimary (.name hkind)
  | @application name arguments hname hquantifier hsome harguments =>
      have hlist : ScansTo (fun tokens => ∃ (opening closing : Token) (inside : List Token),
          tokens = opening :: (inside ++ [closing]) ∧ opening.kind = .openParen ∧
            DerivesArguments inside arguments ∧ closing.kind = .closeParen)
          ('(' :: ((",".intercalate arguments).toList ++ [')'])) :=
        scansTo_parenthesized (scansTo_arguments hsome harguments)
          fun opening inside closing hopening hinside hclosing =>
            ⟨opening, closing, inside, rfl, hopening, hinside, hclosing⟩
      rw [toList_applicationName]
      refine hname.scansTo.append hlist rfl ?_
      rintro _ _ ⟨head, rfl, hkind, rfl⟩
        ⟨opening, closing, inside, rfl, hopening, hinside, hclosing⟩
      exact .ofPrimary (.application hkind hquantifier hopening hinside hclosing)

end Scanning

/-- The rank at which the rendering of a formula is read. -/
def renderRank (formula : Formula) : Rank :=
  if formula.isBinary then .equivalence else .negation

theorem Derives.ofRenderRank {tokens : List Token} {formula : Formula}
    (hderives : Derives formula.renderRank tokens formula) :
    Derives .equivalence tokens formula := by
  unfold renderRank at hderives
  split at hderives
  · exact hderives
  · exact .ofImplication (.ofDisjunction hderives.ofNegations)

theorem scansTo_wrap {formula : Formula} {text : String}
    (hscans : ScansTo (fun tokens => Derives formula.renderRank tokens formula)
      (respell text.toList)) :
    ScansTo (fun tokens => Derives .negation tokens formula)
      (respell (formula.wrap text).toList) := by
  unfold wrap
  unfold renderRank at hscans
  by_cases hbinary : formula.isBinary = true
  · rw [if_pos hbinary] at hscans ⊢
    have hlist : ("(" ++ text ++ ")").toList = '(' :: (text.toList ++ [')']) := by simp
    rw [hlist, respell_cons (by decide), respell_append_cons (by decide)]
    refine scansTo_parenthesized hscans ?_
    intro opening tokens closing hopening htokens hclosing
    exact .ofPrimary (.group hopening htokens hclosing)
  · rw [if_neg hbinary] at hscans ⊢
    exact hscans

theorem scansTo_joined {connective : Connective} {left right formula : Formula}
    {sign text text' : String} (hsign : sign ∈ connective.signs)
    (hleft : ScansTo (fun tokens => Derives left.renderRank tokens left) (respell text.toList))
    (hright : ScansTo (fun tokens => Derives right.renderRank tokens right)
      (respell text'.toList))
    (hjoin : ∀ {tokens tokens' : List Token} {sign : Token}, Derives .negation tokens left →
      sign.kind = connective.tokenKind → Derives .negation tokens' right →
        Derives .equivalence (tokens ++ sign :: tokens') formula) :
    ScansTo (fun tokens => Derives .equivalence tokens formula)
      (respell (left.wrap text ++ (" " ++ sign ++ " ") ++ right.wrap text').toList) := by
  have hlist : (left.wrap text ++ (" " ++ sign ++ " ") ++ right.wrap text').toList =
      (left.wrap text).toList ++ ' ' :: (sign.toList ++ ' ' :: (right.wrap text').toList) := by
    simp
  rw [hlist, respell_append_cons (by decide), respell_append_cons (by decide)]
  have hrest : ScansTo (fun tokens => ∃ (sign : Token) (others : List Token),
      tokens = sign :: others ∧ sign.kind = connective.tokenKind ∧ Derives .negation others right)
      (respell sign.toList ++ ' ' :: respell (right.wrap text').toList) := by
    refine (scansTo_sign hsign).append ((scansTo_wrap hright).cons_blank rfl) rfl ?_
    rintro _ others ⟨sign, rfl, hkind⟩ hothers
    exact ⟨sign, others, rfl, hkind, hothers⟩
  refine (scansTo_wrap hleft).append (hrest.cons_blank rfl) rfl ?_
  rintro tokens _ htokens ⟨sign, others, rfl, hkind, hothers⟩
  exact hjoin htokens hkind hothers

/-- A written formula scans, in the plain alphabet, to tokens that derive it. -/
theorem IsWritten.scansTo {formula : Formula} {text : String} (hwritten : IsWritten formula text)
    (hnames : ∀ name ∈ formula.atoms, IsStrictName name) :
    ScansTo (fun tokens => Derives formula.renderRank tokens formula) (respell text.toList) := by
  induction hwritten with
  | atom name =>
      have hname := hnames name List.mem_cons_self
      rw [hname.respell_eq]
      exact hname.scansTo
  | neg hsign _ ih =>
      rw [String.toList_append, respell_negation hsign]
      refine (scansTo_wrap (ih hnames)).cons_mark rfl (fun _ => rfl) ?_
      intro position tokens htokens
      exact .negation rfl htokens
  | conj hsign _ _ ihLeft ihRight =>
      refine scansTo_joined hsign (ihLeft fun name h => hnames name (List.mem_append_left _ h))
        (ihRight fun name h => hnames name (List.mem_append_right _ h)) ?_
      intro tokens tokens' sign hleft hkind hright
      exact .ofImplication (.ofDisjunction
        (.ofConjunction (.conjunction (.ofNegation hleft) hkind hright)))
  | disj hsign _ _ ihLeft ihRight =>
      refine scansTo_joined hsign (ihLeft fun name h => hnames name (List.mem_append_left _ h))
        (ihRight fun name h => hnames name (List.mem_append_right _ h)) ?_
      intro tokens tokens' sign hleft hkind hright
      exact .ofImplication (.ofDisjunction
        (.disjunction hleft.ofNegations hkind (.ofNegation hright)))
  | imp hsign _ _ ihLeft ihRight =>
      refine scansTo_joined hsign (ihLeft fun name h => hnames name (List.mem_append_left _ h))
        (ihRight fun name h => hnames name (List.mem_append_right _ h)) ?_
      intro tokens tokens' sign hleft hkind hright
      exact .ofImplication
        (.implication hleft.ofNegations hkind (.ofDisjunction hright.ofNegations))
  | iff hsign _ _ ihLeft ihRight =>
      refine scansTo_joined hsign (ihLeft fun name h => hnames name (List.mem_append_left _ h))
        (ihRight fun name h => hnames name (List.mem_append_right _ h)) ?_
      intro tokens tokens' sign hleft hkind hright
      exact .equivalence (.ofImplication (.ofDisjunction hleft.ofNegations)) hkind
        (.ofDisjunction hright.ofNegations)

theorem IsWritten.parse_eq {formula : Formula} {text : String} (hwritten : IsWritten formula text)
    (hnames : ∀ name ∈ formula.atoms, IsStrictName name) : parse false text = .ok formula := by
  obtain ⟨tokens, hscan, hderives⟩ := (hwritten.scansTo hnames).scan_eq
  rw [parse_eq_ofTokens hscan, ofTokens_eq_ok_iff]
  exact hderives.ofRenderRank

/-- What was read strictly is read again from its rendering, with any accepted sign in the place of
each connective, and so is its canonical form. -/
theorem parse_eq_of_isWritten (text : String) (formula : Formula)
    (hparse : parse false text = .ok formula) :
    (∀ written, IsWritten formula written → parse false written = .ok formula) ∧
    (∀ written, IsWritten formula.canonical written →
      parse false written = .ok formula.canonical) ∧
    parse false formula.render = .ok formula ∧
    parse false formula.canonical.render = .ok formula.canonical := by
  have hnames := isNaming_isStrictName.forall_atoms_of_parse hparse
  have hcanonical : ∀ name ∈ formula.canonical.atoms, IsStrictName name := fun name hname =>
    hnames name ((rearranges_canonical formula).atoms_perm.mem_iff.mpr hname)
  exact ⟨fun _ hwritten => hwritten.parse_eq hnames,
    fun _ hwritten => hwritten.parse_eq hcanonical, (isWritten_render _).parse_eq hnames,
    (isWritten_render _).parse_eq hcanonical⟩

/-- The canonical form has the sides of the disjunction in the other order. -/
theorem parse_respelled_implication :
    parse false "P(x) → (C ∨ ¬A)" =
        .ok (.imp (.atom "P(x)") (.disj (.atom "C") (.neg (.atom "A")))) ∧
      parse false "P(x) => (C || ~A)" =
        .ok (.imp (.atom "P(x)") (.disj (.atom "C") (.neg (.atom "A")))) ∧
      parse false "P(x) ⇒ (!A \\/ C)" =
        .ok (.imp (.atom "P(x)") (.disj (.neg (.atom "A")) (.atom "C"))) := by
  have hparse : parse false "P(x) → (C ∨ ¬A)" =
      .ok (.imp (.atom "P(x)") (.disj (.atom "C") (.neg (.atom "A")))) := by decide +kernel
  have hcanonical : canonical (.imp (.atom "P(x)") (.disj (.atom "C") (.neg (.atom "A")))) =
      .imp (.atom "P(x)") (.disj (.neg (.atom "A")) (.atom "C")) := by
    have horder : keyLe (.atom "C") (.neg (.atom "A")) = false := by decide +kernel
    simp [canonical_disj, disjuncts, sortByKey, List.mergeSort, horder, joinLeft]
  have hsame : IsWritten (.imp (.atom "P(x)") (.disj (.atom "C") (.neg (.atom "A"))))
      "P(x) => (C || ~A)" :=
    @IsWritten.imp _ _ "=>" _ _ (by decide) (.atom _)
      (@IsWritten.disj _ _ "||" _ _ (by decide) (.atom _)
        (@IsWritten.neg _ "~" _ (by decide) (.atom _)))
  have hswapped : IsWritten (.imp (.atom "P(x)") (.disj (.neg (.atom "A")) (.atom "C")))
      "P(x) ⇒ (!A \\/ C)" :=
    @IsWritten.imp _ _ "⇒" _ _ (by decide) (.atom _)
      (@IsWritten.disj _ _ "\\/" _ _ (by decide)
        (@IsWritten.neg _ "!" _ (by decide) (.atom _)) (.atom _))
  have hread := parse_eq_of_isWritten _ _ hparse
  rw [hcanonical] at hread
  exact ⟨hparse, hread.1 _ hsame, hread.2.1 _ hswapped⟩

end Deduction.Formula
